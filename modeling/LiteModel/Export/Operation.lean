import LiteModel.Graph.Finalized
import LiteModel.Operator
import LiteModel.Decimal.Binary32
import LiteModel.Text.Blank

/-! Layers lowered to operations: the layer type becomes an operator, and the properties that the
operator knows become its options. Other properties have no effect. -/
namespace LiteModel

structure Operation where
  name : String
  kind : OperatorKind
  inputs : List VariableId
  outputs : List VariableId
  weights : List VariableId
  options : Option OperatorOptions
deriving DecidableEq, Repr

inductive LoweringError where
  | unsupportedOperator (layer layerType : String)
  | invalidProperty (layer key value : String)
deriving DecidableEq, Repr

def LoweringError.message : LoweringError → String
  | unsupportedOperator layer layerType =>
    "unsupported operator '" ++ layerType ++ "' in layer '" ++ layer ++ "'"
  | invalidProperty layer key value =>
    "invalid property '" ++ key ++ "' = '" ++ value ++ "' in layer '" ++ layer ++ "'"

namespace Operation

def defaultBeta : UInt32 := 0x3f800000

def beta? (value : String) : Option UInt32 :=
  Decimal.Binary32.ofText? (Text.trim value.toList)

def property {α : Type} (l : Layer) (key : String) (default : α) (read? : String → Option α) :
    Except LoweringError α :=
  match l.properties.get? key with
  | none => .ok default
  | some value =>
    match read? value with
    | some a => .ok a
    | none => .error (.invalidProperty l.name key value)

def optionsOf (kind : OperatorKind) (l : Layer) : Except LoweringError (Option OperatorOptions) :=
  match kind with
  | .fullyConnected => do
    let activation ← property l "activation" Activation.none Activation.ofProperty?
    return some (.fullyConnected activation)
  | .softmax => do
    let beta ← property l "beta" defaultBeta beta?
    return some (.softmax beta)
  | _ => return none

def ofLayer (l : Layer) : Except LoweringError Operation := do
  match OperatorKind.ofLayerType? l.layerType with
  | none => throw (.unsupportedOperator l.name l.layerType)
  | some kind =>
    let options ← optionsOf kind l
    return ⟨l.name, kind, l.inputs, l.outputs, l.weights, options⟩

def operands (o : Operation) : List VariableId := o.inputs ++ o.weights

end Operation

def FinalizedGraph.lower (g : FinalizedGraph) : Except LoweringError (List Operation) :=
  g.graph.layers.mapM Operation.ofLayer

end LiteModel
