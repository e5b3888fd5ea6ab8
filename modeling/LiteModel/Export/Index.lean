import LiteModel.Export.Error
import LiteModel.Numbering.Table

/-! The numbers that an exported container gives to operators, tensors and buffers, each kind in the
order of first use. Buffer 0 stays empty; the storages behind the weights follow it, each once. -/
namespace LiteModel

inductive BufferSlot where
  | empty
  | data (storage : Storage)
deriving Repr

namespace BufferSlot

def ofTensor (t : Tensor) : BufferSlot :=
  match t.storage with
  | some storage => if t.isInitialized then .data storage else .empty
  | none => .empty

def ofVariable (g : FinalizedGraph) (id : VariableId) : Except ExportError BufferSlot :=
  match g.graph.lookup id with
  | some v => .ok (ofTensor v.tensor)
  | none => .error (.unknownVariable id)

def bytes : BufferSlot → List UInt8
  | empty => []
  | data storage => storage.bytes

def size : BufferSlot → Nat
  | empty => 0
  | data storage => storage.size

def storage? : BufferSlot → Option Storage
  | empty => none
  | data storage => some storage

def render (number : Nat) : BufferSlot → String
  | empty => "Empty"
  | data storage =>
    "Data(buf#" ++ number.repr ++ ", " ++ storage.size.repr ++ " bytes)"

end BufferSlot

structure ExportIndex where
  kinds : Numbering.Table OperatorKind := .empty
  storages : Numbering.Table Storage := .empty
  tensors : Numbering.Table VariableId := .empty
  weights : List VariableId := []
deriving Repr, Inhabited

namespace ExportIndex

def addWeight (g : FinalizedGraph) (index : ExportIndex) (id : VariableId) :
    Except ExportError ExportIndex := do
  let slot ← BufferSlot.ofVariable g id
  return { index with
    weights := index.weights ++ [id]
    storages := index.storages.addAll slot.storage?.toList }

def addOperation (g : FinalizedGraph) (index : ExportIndex) (o : Operation) :
    Except ExportError ExportIndex :=
  o.weights.foldlM (addWeight g)
    { index with
      kinds := (index.kinds.add o.kind).1
      tensors := index.tensors.addAll (o.inputs ++ o.outputs ++ o.weights) }

def build (g : FinalizedGraph) (operations : List Operation) : Except ExportError ExportIndex := do
  let index ← operations.foldlM (addOperation g) {}
  return { index with tensors := index.tensors.addAll (g.graph.inputs ++ g.graph.outputs) }

def slots (index : ExportIndex) : List BufferSlot := .empty :: index.storages.values.map .data

/-- The number of a variable's data. The empty buffer is in front of the storages, so each has the
word after its own number among them. -/
def bufferIndex (index : ExportIndex) (g : FinalizedGraph) (id : VariableId) :
    Except ExportError UInt32 := do
  if index.weights.contains id then
    match (← BufferSlot.ofVariable g id) with
    | .empty => return 0
    | .data storage => return ((index.storages.indexOf? storage).map (· + 1)).getD 0
  else return 0

def largestInteger : Nat := 0x7fffffff

def tensorIndex (index : ExportIndex) (id : VariableId) : Except ExportError Int32 := do
  let i ← index.tensors.indexOf VariableId.title id
  if i.toNat ≤ largestInteger then return Int32.ofNat i.toNat else throw (.oversizedIndex i.toNat)

def tensorIndices (index : ExportIndex) (ids : List VariableId) : Except ExportError (List Int32) :=
  ids.mapM index.tensorIndex

end ExportIndex

end LiteModel
