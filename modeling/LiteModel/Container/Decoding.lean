import LiteModel.Container.Bytes
import LiteModel.Container.Content
import LiteModel.Container.Slot

/-! The content of a container as its bytes give it. Nothing is checked on the way: a read that
leaves the file, or a text that is not text, leaves no content at all. -/
namespace LiteModel.Container

namespace File

structure Table where
  position : Nat
  vtable : Nat
  vtableSize : Nat
deriving Repr

def table? (file : File) (position : Nat) : Option Table := do
  let back ← file.word? 4 position
  let vtable : Int := position - (UInt32.ofNat back).toInt32.toInt
  if vtable < 0 then none
  else
    let vtableSize ← file.word? 2 vtable.toNat
    return ⟨position, vtable.toNat, vtableSize⟩

def place? (file : File) (t : Table) (slot : Nat) : Option (Option Nat) := do
  if slot < t.vtableSize then
    let offset ← file.word? 2 (t.vtable + slot)
    return if offset = 0 then none else some (t.position + offset)
  else return none

def target? (file : File) (position : Nat) : Option Nat := do
  return position + (← file.word? 4 position)

def field? {α : Type} (file : File) (t : Table) (slot : Nat) (read : Nat → Option α) :
    Option (Option α) := do
  match ← file.place? t slot with
  | some position => some <$> read position
  | none => return none

def number? (file : File) (t : Table) (slot width default : Nat) : Option Nat := do
  return (← file.field? t slot (file.word? width)).getD default

def referred? {α : Type} (file : File) (t : Table) (slot : Nat) (read : Nat → Option α) :
    Option (Option α) :=
  file.field? t slot fun position => do read (← file.target? position)

def list? {α : Type} (file : File) (width : Nat) (read : Nat → Option α) (position : Nat) :
    Option (List α) := do
  let count ← file.word? 4 position
  (List.range count).mapM fun i => read (position + 4 + width * i)

def integers? (file : File) : Nat → Option (List Int32) :=
  file.list? 4 fun position => do return (UInt32.ofNat (← file.word? 4 position)).toInt32

def bytes? (file : File) (position : Nat) : Option (List UInt8) := do
  file.slice? (position + 4) (← file.word? 4 position)

def countedText? (file : File) (position : Nat) : Option String := do
  file.text? (position + 4) (← file.word? 4 position)

def tables? {α : Type} (file : File) (read : Nat → Option α) : Nat → Option (List α) :=
  file.list? 4 fun position => do read (← file.target? position)

def buffer? (file : File) (position : Nat) : Option Buffer := do
  let t ← file.table? position
  return { data := ← file.referred? t Slot.Buffer.data file.bytes? }

def operatorCode? (file : File) (position : Nat) : Option OperatorCode := do
  let t ← file.table? position
  return {
    deprecatedCode :=
      (UInt8.ofNat (← file.number? t Slot.OperatorCode.deprecatedCode 1 0)).toInt8
    version := (UInt32.ofNat (← file.number? t Slot.OperatorCode.version 4 1)).toInt32
    builtinCode := (UInt32.ofNat (← file.number? t Slot.OperatorCode.builtinCode 4 0)).toInt32 }

def tensor? (file : File) (position : Nat) : Option TensorEntry := do
  let t ← file.table? position
  return {
    shape := ← file.referred? t Slot.Tensor.shape file.integers?
    typeCode := (UInt8.ofNat (← file.number? t Slot.Tensor.typeCode 1 0)).toInt8
    buffer := UInt32.ofNat (← file.number? t Slot.Tensor.buffer 4 0)
    name := ← file.referred? t Slot.Tensor.name file.countedText? }

def activation? (file : File) (position : Nat) : Option Int8 := do
  let t ← file.table? position
  return (UInt8.ofNat (← file.number? t Slot.FullyConnected.activation 1 0)).toInt8

def beta? (file : File) (position : Nat) : Option UInt32 := do
  let t ← file.table? position
  return UInt32.ofNat (← file.number? t Slot.Softmax.beta 4 0)

def options? (file : File) (t : Table) : Option Options := do
  let tag := UInt8.ofNat (← file.number? t Slot.Operator.optionsTag 1 0)
  if tag = Options.fullyConnectedTag then
    let activation ← file.referred? t Slot.Operator.options file.activation?
    return (activation.map Options.fullyConnected).getD (.other tag)
  else if tag = Options.softmaxTag then
    let beta ← file.referred? t Slot.Operator.options file.beta?
    return (beta.map Options.softmax).getD (.other tag)
  else return .other tag

def operator? (file : File) (position : Nat) : Option OperatorEntry := do
  let t ← file.table? position
  return {
    codeIndex := UInt32.ofNat (← file.number? t Slot.Operator.codeIndex 4 0)
    inputs := ← file.referred? t Slot.Operator.inputs file.integers?
    outputs := ← file.referred? t Slot.Operator.outputs file.integers?
    options := ← file.options? t }

def subgraph? (file : File) (position : Nat) : Option Subgraph := do
  let t ← file.table? position
  return {
    tensors := ← file.referred? t Slot.Subgraph.tensors (file.tables? file.tensor?)
    inputs := ← file.referred? t Slot.Subgraph.inputs file.integers?
    outputs := ← file.referred? t Slot.Subgraph.outputs file.integers?
    operators := ← file.referred? t Slot.Subgraph.operators (file.tables? file.operator?)
    name := ← file.referred? t Slot.Subgraph.name file.countedText? }

def model? (file : File) (position : Nat) : Option Model := do
  let t ← file.table? position
  return {
    version := UInt32.ofNat (← file.number? t Slot.Model.version 4 0)
    operatorCodes := ← file.referred? t Slot.Model.operatorCodes (file.tables? file.operatorCode?)
    subgraphs := ← file.referred? t Slot.Model.subgraphs (file.tables? file.subgraph?)
    description := ← file.referred? t Slot.Model.description file.countedText?
    buffers := ← file.referred? t Slot.Model.buffers (file.tables? file.buffer?) }

def content? (file : File) : Option Model := do
  file.model? (← file.target? 0)

end File

end LiteModel.Container
