import LiteModel.Manifest.Validation
import LiteModel.Graph.Finalized
import LiteModel.Weights

/-! The graph that a manifest declares. Each tensor becomes the variable at its position: one that
is declared with data is the weight of its name, which must have the declared shape and element
type, and any other is a placeholder. Layers refer to the positions of the tensors they name. -/
namespace LiteModel

inductive ModelError where
  | manifest (fault : ManifestFault)
  | weightNotFound (name : String)
  | weightMismatch (name : String) (declared : Shape × ElementType) (given : Shape × ElementType)
  | graph (error : GraphError)
deriving DecidableEq, Repr

namespace ModelError

def form (f : Shape × ElementType) : String := f.1.render ++ " " ++ f.2.label

def message : ModelError → String
  | manifest fault => fault.message
  | weightNotFound name => "weight tensor not found: " ++ name
  | weightMismatch name declared given =>
    "invalid layer '" ++ name ++ "': declared " ++ form declared ++ ", weight file has " ++
      form given
  | graph error => error.message

end ModelError

namespace Manifest

def variableFor (m : Manifest) (weights : Weights) (t : TensorDeclaration) :
    Except ModelError Variable := do
  let type ← (m.elementTypeOf t).mapError .manifest
  match t.data, weights.find? t.name with
  | .none, _ => return ⟨t.name, .placeholder t.shape type⟩
  | .safetensors, none => throw (.weightNotFound t.name)
  | .safetensors, some weight =>
    if weight.shape = t.shape ∧ weight.elementType = type then return ⟨t.name, weight⟩
    else throw (.weightMismatch t.name (t.shape, type) (weight.shape, weight.elementType))

def idOf? (m : Manifest) (name : String) : Option VariableId :=
  (m.tensors.findIdx? (·.name == name)).map VariableId.mk

def resolve (m : Manifest) (referrer : String) (names : List String) :
    Except ModelError (List VariableId) :=
  names.mapM fun name =>
    match m.idOf? name with
    | some id => .ok id
    | none => .error (.manifest (.unknownTensor name referrer))

def layerFor (m : Manifest) (l : LayerDeclaration) : Except ModelError Layer := do
  return {
    name := l.name
    layerType := l.layerType
    inputs := ← m.resolve l.name l.inputs
    outputs := ← m.resolve l.name l.outputs
    weights := ← m.resolve l.name l.weights
    properties := l.properties }

def toGraph (m : Manifest) (weights : Weights) : Except ModelError FinalizedGraph := do
  m.validate.mapError .manifest
  let arena ← m.tensors.mapM (m.variableFor weights)
  let layers ← m.layers.mapM m.layerFor
  let inputs ← m.resolve m.name m.inputs
  let outputs ← m.resolve m.name m.outputs
  let g : Graph := ⟨m.name, arena.toArray, layers, inputs, outputs⟩
  g.finalize.mapError .graph

end Manifest

end LiteModel
