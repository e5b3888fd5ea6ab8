import LiteModel.Export.Assembly

/-! Exporting a finalized graph: lower its layers, number what they use, assemble the container and
verify the result before it is given out. -/
namespace LiteModel

structure Export where
  bytes : List UInt8
  operatorCodes : Nat
  operators : Nat
  tensors : Nat
  buffers : Nat
deriving Repr

namespace Export

def formatName : String := "tflite"

def size (e : Export) : Nat := e.bytes.length

def summary (e : Export) : String :=
  e.size.repr ++ " bytes: " ++ e.operators.repr ++ " operators (" ++ e.operatorCodes.repr ++
    " codes), " ++ e.tensors.repr ++ " tensors, " ++ e.buffers.repr ++ " buffers"

end Export

def FinalizedGraph.toContainer (g : FinalizedGraph) (config : ExportConfig) :
    Except ExportError Export := do
  let operations ← g.lower.mapError .lowering
  let index ← ExportIndex.build g operations
  let bytes ← assemble g operations index config
  (Container.verify bytes).mapError .verification
  return {
    bytes
    operatorCodes := index.kinds.size
    operators := operations.length
    tensors := index.tensors.size
    buffers := index.slots.length }

end LiteModel
