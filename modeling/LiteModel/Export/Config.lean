/-! What an export may be told: the container's description, the name of its subgraph, and whether
the tensors keep their names. -/
namespace LiteModel

structure ExportConfig where
  description : String := "This file is generated from edge-model-export"
  subgraphName : Option String := none
  tensorNames : Bool := true
deriving DecidableEq, Repr, Inhabited

def ExportConfig.withDescription (c : ExportConfig) (description : String) : ExportConfig :=
  { c with description }

end LiteModel
