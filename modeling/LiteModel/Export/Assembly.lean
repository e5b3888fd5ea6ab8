import LiteModel.Export.Index
import LiteModel.Export.Config
import LiteModel.Container.Encoding

/-! The container of a graph. Its content follows the graph's layers and the export index; the bytes
are that content's encoding. The graph, the operations and the index may come from different
models: an operator or a variable that the index or the graph does not have is an error. -/
namespace LiteModel.Assembly
open Container

/-- Weights beside which a container has no room for its tables. -/
def maxFileSize : Nat := 0x7fffffff

def tableRoom : Nat := 4096

def checkWeights (index : ExportIndex) : Except ExportError Unit :=
  let total := Word.total (index.slots.map (·.size))
  if maxFileSize < total + tableRoom then .error (.oversizedWeights total) else .ok ()

def buffers (index : ExportIndex) : List Buffer :=
  index.slots.map fun slot => ⟨if slot.bytes.isEmpty then none else some slot.bytes⟩

/-- Codes up to 127 stand in the deprecated field as well. -/
def operatorCode (kind : OperatorKind) : OperatorCode where
  deprecatedCode := (min kind.code 127).toInt8
  builtinCode := kind.code

def dimension (name : String) (d : UInt64) : Except ExportError Int32 :=
  if d.toNat ≤ ExportIndex.largestInteger then .ok (Int32.ofNat d.toNat)
  else .error (.oversizedDimension d name)

def tensorEntry (g : FinalizedGraph) (index : ExportIndex) (config : ExportConfig)
    (id : VariableId) : Except ExportError TensorEntry := do
  match g.graph.lookup id with
  | none => throw (.unknownVariable id)
  | some v =>
    let shape ← v.tensor.shape.dims.mapM (dimension v.name)
    let buffer ← index.bufferIndex g id
    return {
      shape := some shape
      typeCode := v.tensor.elementType.code
      buffer
      name := if config.tensorNames then some v.name else none }

def optionsOf : Option OperatorOptions → Options
  | none => .other 0
  | some (.fullyConnected activation) => .fullyConnected activation.code
  | some (.softmax beta) => .softmax beta

def operatorEntry (index : ExportIndex) (o : Operation) : Except ExportError OperatorEntry := do
  let codeIndex ← index.kinds.indexOf OperatorKind.title o.kind
  let inputs ← index.tensorIndices o.operands
  let outputs ← index.tensorIndices o.outputs
  return {
    codeIndex
    inputs := some inputs
    outputs := some outputs
    options := optionsOf o.options }

def subgraph (g : FinalizedGraph) (operations : List Operation) (index : ExportIndex)
    (config : ExportConfig) : Except ExportError Subgraph := do
  let tensors ← index.tensors.values.mapM (tensorEntry g index config)
  let operators ← operations.mapM (operatorEntry index)
  let inputs ← index.tensorIndices g.graph.inputs
  let outputs ← index.tensorIndices g.graph.outputs
  return {
    tensors := some tensors
    inputs := some inputs
    outputs := some outputs
    operators := some operators
    name := some (config.subgraphName.getD g.graph.name) }

def content (g : FinalizedGraph) (operations : List Operation) (index : ExportIndex)
    (config : ExportConfig) : Except ExportError Model := do
  checkWeights index
  let subgraph ← subgraph g operations index config
  return {
    version := supportedVersion
    operatorCodes := some (index.kinds.values.map operatorCode)
    subgraphs := some [subgraph]
    description := some config.description
    buffers := some (buffers index) }

end LiteModel.Assembly

namespace LiteModel

def assemble (g : FinalizedGraph) (operations : List Operation) (index : ExportIndex)
    (config : ExportConfig) : Except ExportError (List UInt8) := do
  return (← Assembly.content g operations index config).encode

end LiteModel
