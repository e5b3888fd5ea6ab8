import LiteModel.Manifest

/-! The rules of a manifest, checked in a fixed order: first that there are layers and the element
type is known, then each tensor, then each layer, then the names of the graph's inputs and
outputs. The first rule that is broken is reported. -/
namespace LiteModel

inductive ManifestFault where
  | noLayers
  | unknownElementType (name label : String)
  | duplicateTensor (name : String)
  | oversizedTensor (name : String) (shape : Shape)
  | duplicateLayer (name : String)
  | unknownTensor (name referrer : String)
deriving DecidableEq, Repr

def ManifestFault.message : ManifestFault → String
  | noLayers => "invalid model graph: manifest contains no layers"
  | unknownElementType name label =>
    "invalid layer '" ++ name ++ "': unsupported dtype '" ++ label ++ "'"
  | duplicateTensor name => "invalid model graph: duplicate tensor name '" ++ name ++ "'"
  | oversizedTensor name shape =>
    "invalid model graph: tensor '" ++ name ++ "' with shape " ++ shape.render ++
      " overflows the addressable size"
  | duplicateLayer name => "invalid layer '" ++ name ++ "': duplicate layer name"
  | unknownTensor name referrer =>
    "unknown tensor '" ++ name ++ "' referenced by '" ++ referrer ++ "'"

namespace Manifest

def elementTypeOf (m : Manifest) (t : TensorDeclaration) : Except ManifestFault ElementType :=
  match ElementType.ofLabel? (m.labelOf t) with
  | some type => .ok type
  | none => .error (.unknownElementType t.name (m.labelOf t))

def checkTensor (m : Manifest) (seen : List String) (t : TensorDeclaration) :
    Except ManifestFault (List String) := do
  if seen.contains t.name then throw (.duplicateTensor t.name)
  let type ← m.elementTypeOf t
  if (t.shape.byteSize? type).isNone then throw (.oversizedTensor t.name t.shape)
  return t.name :: seen

def checkReferences (declared : List String) (referrer : String) (names : List String) :
    Except ManifestFault Unit :=
  match names.find? fun name => !declared.contains name with
  | some name => .error (.unknownTensor name referrer)
  | none => .ok ()

def checkLayer (declared : List String) (seen : List String) (l : LayerDeclaration) :
    Except ManifestFault (List String) := do
  if seen.contains l.name then throw (.duplicateLayer l.name)
  checkReferences declared l.name l.references
  return l.name :: seen

def validate (m : Manifest) : Except ManifestFault Unit := do
  if m.layers.isEmpty then throw .noLayers
  if (ElementType.ofLabel? m.elementType).isNone then
    throw (.unknownElementType m.name m.elementType)
  let declared ← m.tensors.foldlM m.checkTensor []
  let _ ← m.layers.foldlM (checkLayer declared) []
  checkReferences declared m.name (m.inputs ++ m.outputs)

end Manifest

end LiteModel
