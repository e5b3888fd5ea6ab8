import LiteModel.Container.Content
import LiteModel.Container.Slot
import LiteModel.Container.Builder

/-! The bytes of a container with given content. Each table is written after all that it refers to,
and a number that has its default value is left out. -/
namespace LiteModel.Container

namespace Write

def number32 (slot : Nat) (value default : UInt32) : List Field :=
  if value = default then [] else [⟨slot, .number 4 value.toNat⟩]

def number8 (slot : Nat) (value default : UInt8) : List Field :=
  if value = default then [] else [⟨slot, .number 1 value.toNat⟩]

def float32 (slot : Nat) (bits : UInt32) : List Field :=
  if bits &&& 0x7fffffff = 0 then [] else [⟨slot, .number 4 bits.toNat⟩]

def referred (slot : Nat) (place : Option Nat) : List Field :=
  (place.map fun p => ⟨slot, .reference p⟩).toList

def tables {α : Type} (writeOne : α → Write Nat) (items : List α) : Write Nat := do
  references (← items.mapM writeOne)

def buffer (b : Buffer) : Write Nat := do
  let data ← b.data.mapM bytes
  table (referred Slot.Buffer.data data)

def operatorCode (c : OperatorCode) : Write Nat :=
  table (number8 Slot.OperatorCode.deprecatedCode c.deprecatedCode.toUInt8 0 ++
    number32 Slot.OperatorCode.version c.version.toUInt32 1 ++
    number32 Slot.OperatorCode.builtinCode c.builtinCode.toUInt32 0)

def tensor (t : TensorEntry) : Write Nat := do
  let shape ← t.shape.mapM integers
  let name ← t.name.mapM text
  table (referred Slot.Tensor.shape shape ++
    number8 Slot.Tensor.typeCode t.typeCode.toUInt8 0 ++
    number32 Slot.Tensor.buffer t.buffer 0 ++
    referred Slot.Tensor.name name)

def options : Options → Write (Option Nat)
  | .fullyConnected activation =>
    some <$> table (number8 Slot.FullyConnected.activation activation.toUInt8 0)
  | .softmax beta => some <$> table (float32 Slot.Softmax.beta beta)
  | .other _ => return none

def operator (o : OperatorEntry) : Write Nat := do
  let inputs ← o.inputs.mapM integers
  let outputs ← o.outputs.mapM integers
  let place ← options o.options
  let tag := if place.isSome then o.options.tag else 0
  table (number32 Slot.Operator.codeIndex o.codeIndex 0 ++
    referred Slot.Operator.inputs inputs ++
    referred Slot.Operator.outputs outputs ++
    number8 Slot.Operator.optionsTag tag 0 ++
    referred Slot.Operator.options place)

def subgraph (s : Subgraph) : Write Nat := do
  let tensors ← s.tensors.mapM (tables tensor)
  let operators ← s.operators.mapM (tables operator)
  let inputs ← s.inputs.mapM integers
  let outputs ← s.outputs.mapM integers
  let name ← s.name.mapM text
  table (referred Slot.Subgraph.tensors tensors ++
    referred Slot.Subgraph.inputs inputs ++
    referred Slot.Subgraph.outputs outputs ++
    referred Slot.Subgraph.operators operators ++
    referred Slot.Subgraph.name name)

def model (m : Model) : Write Nat := do
  let buffers ← m.buffers.mapM (tables buffer)
  let operatorCodes ← m.operatorCodes.mapM (tables operatorCode)
  let subgraphs ← m.subgraphs.mapM (tables subgraph)
  let description ← m.description.mapM text
  table (number32 Slot.Model.version m.version 0 ++
    referred Slot.Model.operatorCodes operatorCodes ++
    referred Slot.Model.subgraphs subgraphs ++
    referred Slot.Model.description description ++
    referred Slot.Model.buffers buffers)

end Write

def Model.encode (m : Model) : List UInt8 :=
  fileOf identifier (Write.model m)

end LiteModel.Container
