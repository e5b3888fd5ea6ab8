import LiteModel.Word

/-! Reading numbers, texts and lists at positions of a file. Every read has an answer for positions
beyond the end: there is nothing to read. -/
namespace LiteModel.Container

abbrev File := Array UInt8

namespace File

def byte? (file : File) (position : Nat) : Option Nat := file[position]?.map UInt8.toNat

def word? (file : File) : (width position : Nat) → Option Nat
  | 0, _ => some 0
  | width + 1, position => do
    let low ← file.byte? position
    let high ← file.word? width (position + 1)
    return low + 256 * high

def slice? (file : File) (position length : Nat) : Option (List UInt8) :=
  if position + length ≤ file.size then some (file.extract position (position + length)).toList
  else none

def text? (file : File) (position length : Nat) : Option String := do
  String.fromUTF8? ⟨(← file.slice? position length).toArray⟩

end File

end LiteModel.Container
