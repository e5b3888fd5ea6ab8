import LiteModel.ElementType
import LiteModel.Word
import LiteModel.Text.Bracketed

/-! Tensor shapes. A size is either exact or out of the 64-bit range: the product of the dimensions
is taken from the left and given up at the first step that leaves the range, and a dimension of
zero makes the shape empty whatever the others are. -/
namespace LiteModel

structure Shape where
  dims : List UInt64
deriving DecidableEq, Repr, Inhabited

namespace Shape

def scalar : Shape := ⟨[]⟩

def vector (length : UInt64) : Shape := ⟨[length]⟩

def matrix (rows columns : UInt64) : Shape := ⟨[rows, columns]⟩

def rank (s : Shape) : Nat := s.dims.length

def dim? (s : Shape) (i : Nat) : Option UInt64 := s.dims[i]?

def isEmpty (s : Shape) : Bool := s.dims.contains 0

def elementCount? (s : Shape) : Option UInt64 :=
  if s.isEmpty then some 0 else s.dims.foldlM Word.mul? 1

def byteSize? (s : Shape) (t : ElementType) : Option UInt64 := do
  Word.mul? (← s.elementCount?) (UInt64.ofNat t.byteSize)

def elementCount (s : Shape) : UInt64 := s.elementCount?.getD Word.largest

def byteSize (s : Shape) (t : ElementType) : UInt64 := (s.byteSize? t).getD Word.largest

def render (s : Shape) : String := Text.numbers (s.dims.map UInt64.toNat)

end Shape

end LiteModel
