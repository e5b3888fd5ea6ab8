import LiteModel.Container.Bytes
import LiteModel.Container.Content
import LiteModel.Container.Slot

/-! The structure of a container: whether everything that can be reached from the root lies in the
file, at positions that fit its width, with texts that are text. Each range gone through adds to
the apparent size and each table to a count, as often as it is reached; both are bounded, so files
that reach the same bytes again and again are refused. -/
namespace LiteModel.Container

inductive StructureFault where
  | unaligned
  | outOfRange
  | vtableOutOfRange
  | apparentSizeTooLarge
  | tooManyTables
  | notText
  | unterminatedText
  | inconsistentUnion
deriving DecidableEq, Repr

def StructureFault.message : StructureFault → String
  | unaligned => "a field is not aligned"
  | outOfRange => "a range is out of bounds"
  | vtableOutOfRange => "a table's vtable is out of bounds"
  | apparentSizeTooLarge => "the apparent size is too large"
  | tooManyTables => "there are too many tables"
  | notText => "a text is not valid UTF-8"
  | unterminatedText => "a text lacks its terminating zero"
  | inconsistentUnion => "options and their tag do not stand together"

structure Usage where
  size : Nat := 0
  tables : Nat := 0
deriving DecidableEq, Repr, Inhabited

namespace Usage

def maxSize : Nat := 0x80000000

def maxTables : Nat := 1000000

end Usage

abbrev Check := StateT Usage (Except StructureFault)

namespace Check

def refuse {α : Type} (fault : StructureFault) : Check α := throw fault

def require (holds : Bool) (fault : StructureFault) : Check Unit :=
  if holds then pure () else refuse fault

def range (file : File) (position size : Nat) : Check Unit := do
  require (position + size ≤ file.size) .outOfRange
  modify fun u => { u with size := u.size + size }
  require ((← get).size ≤ Usage.maxSize) .apparentSizeTooLarge

def scalar (file : File) (width position : Nat) : Check Unit := do
  require (position % width == 0) .unaligned
  range file position width

def word (file : File) (width position : Nat) : Check Nat := do
  scalar file width position
  match file.word? width position with
  | some n => return n
  | none => refuse .outOfRange

def reference (file : File) (target : Nat → Check Unit) (position : Nat) : Check Unit := do
  target (position + (← word file 4 position))

def words (file : File) (width position : Nat) : Check Unit := do
  let count ← word file 4 position
  require ((position + 4) % width == 0) .unaligned
  range file (position + 4) (count * width)

def references (file : File) (target : Nat → Check Unit) (position : Nat) : Check Unit := do
  let count ← word file 4 position
  range file (position + 4) (count * 4)
  (List.range count).forM fun i => reference file target (position + 4 + 4 * i)

def text (file : File) (position : Nat) : Check Unit := do
  let count ← word file 4 position
  range file (position + 4) count
  require (file.text? (position + 4) count).isSome .notText
  require (file[position + 4 + count]? == some 0) .unterminatedText

structure Table where
  position : Nat
  vtable : Nat
  vtableSize : Nat
deriving Repr

def table (file : File) (position : Nat) : Check Table := do
  let back ← word file 4 position
  let vtable : Int := position - (UInt32.ofNat back).toInt32.toInt
  require (0 ≤ vtable && vtable < file.size) .vtableOutOfRange
  let vtable := vtable.toNat
  let vtableSize ← word file 2 vtable
  require ((vtable + vtableSize) % 2 == 0) .unaligned
  range file vtable vtableSize
  modify fun u => { u with tables := u.tables + 1 }
  require ((← get).tables ≤ Usage.maxTables) .tooManyTables
  return ⟨position, vtable, vtableSize⟩

def place (file : File) (t : Table) (slot : Nat) : Check (Option Nat) := do
  if slot < t.vtableSize then
    let offset ← word file 2 (t.vtable + slot)
    return if offset = 0 then none else some (t.position + offset)
  else return none

def field (file : File) (t : Table) (slot : Nat) (content : Nat → Check Unit) : Check Unit := do
  match ← place file t slot with
  | some position => content position
  | none => return

def referred (file : File) (t : Table) (slot : Nat) (target : Nat → Check Unit) : Check Unit :=
  field file t slot (reference file target)

def buffer (file : File) (position : Nat) : Check Unit := do
  let t ← table file position
  referred file t Slot.Buffer.data (words file 1)

def operatorCode (file : File) (position : Nat) : Check Unit := do
  let t ← table file position
  field file t Slot.OperatorCode.deprecatedCode (scalar file 1)
  referred file t Slot.OperatorCode.customCode (text file)
  field file t Slot.OperatorCode.version (scalar file 4)
  field file t Slot.OperatorCode.builtinCode (scalar file 4)

def tensor (file : File) (position : Nat) : Check Unit := do
  let t ← table file position
  referred file t Slot.Tensor.shape (words file 4)
  field file t Slot.Tensor.typeCode (scalar file 1)
  field file t Slot.Tensor.buffer (scalar file 4)
  referred file t Slot.Tensor.name (text file)

def fullyConnected (file : File) (position : Nat) : Check Unit := do
  let t ← table file position
  field file t Slot.FullyConnected.activation (scalar file 1)
  field file t Slot.FullyConnected.weightsFormat (scalar file 1)
  field file t Slot.FullyConnected.keepDimensions (scalar file 1)

def softmax (file : File) (position : Nat) : Check Unit := do
  let t ← table file position
  field file t Slot.Softmax.beta (scalar file 4)

/-- Options stand beside their tag or not at all; those of an unknown tag are not gone into. -/
def options (file : File) (t : Table) : Check Unit := do
  let value ← place file t Slot.Operator.options
  let tag ← place file t Slot.Operator.optionsTag
  match tag, value with
  | none, none => return
  | some tag, some value =>
    let tag ← word file 1 tag
    if tag = Options.fullyConnectedTag.toNat then reference file (fullyConnected file) value
    else if tag = Options.softmaxTag.toNat then reference file (softmax file) value
    else return
  | _, _ => refuse .inconsistentUnion

def operator (file : File) (position : Nat) : Check Unit := do
  let t ← table file position
  field file t Slot.Operator.codeIndex (scalar file 4)
  referred file t Slot.Operator.inputs (words file 4)
  referred file t Slot.Operator.outputs (words file 4)
  options file t

def subgraph (file : File) (position : Nat) : Check Unit := do
  let t ← table file position
  referred file t Slot.Subgraph.tensors (references file (tensor file))
  referred file t Slot.Subgraph.inputs (words file 4)
  referred file t Slot.Subgraph.outputs (words file 4)
  referred file t Slot.Subgraph.operators (references file (operator file))
  referred file t Slot.Subgraph.name (text file)

def model (file : File) (position : Nat) : Check Unit := do
  let t ← table file position
  field file t Slot.Model.version (scalar file 4)
  referred file t Slot.Model.operatorCodes (references file (operatorCode file))
  referred file t Slot.Model.subgraphs (references file (subgraph file))
  referred file t Slot.Model.description (text file)
  referred file t Slot.Model.buffers (references file (buffer file))

end Check

def File.usage (file : File) : Except StructureFault Usage := do
  let (_, used) ← (Check.reference file (Check.model file) 0).run {}
  return used

end LiteModel.Container
