import LiteModel.Graph

/-! Manifests: what a model directory declares about a model's tensors and layers. Tensors are
named, and layers refer to them by name. An element type is kept as the label that was written. -/
namespace LiteModel

inductive DataSource where
  | none
  | safetensors
deriving DecidableEq, Repr, Inhabited

namespace DataSource

def label : DataSource → String
  | none => "none"
  | safetensors => "safetensors"

def ofLabel (label : String) : DataSource :=
  if label = "safetensors" then safetensors else none

end DataSource

structure TensorDeclaration where
  name : String
  dims : List UInt64
  elementType : Option String := none
  data : DataSource := .none
deriving DecidableEq, Repr, Inhabited

structure LayerDeclaration where
  name : String
  layerType : String
  inputs : List String := []
  outputs : List String := []
  weights : List String := []
  properties : Properties := .empty
deriving DecidableEq, Repr, Inhabited

structure Manifest where
  name : String
  elementType : String := "f32"
  inputs : List String := []
  outputs : List String := []
  tensors : List TensorDeclaration
  layers : List LayerDeclaration
deriving DecidableEq, Repr, Inhabited

def TensorDeclaration.shape (t : TensorDeclaration) : Shape := ⟨t.dims⟩

def LayerDeclaration.references (l : LayerDeclaration) : List String :=
  l.inputs ++ l.outputs ++ l.weights

namespace Manifest

def labelOf (m : Manifest) (t : TensorDeclaration) : String := t.elementType.getD m.elementType

def needsWeights (m : Manifest) : Bool := m.tensors.any (·.data == .safetensors)

def tensorNames (m : Manifest) : List String := m.tensors.map (·.name)

end Manifest

end LiteModel
