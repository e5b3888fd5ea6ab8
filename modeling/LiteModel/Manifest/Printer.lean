import LiteModel.Manifest
import LiteModel.Json.Text

/-! Manifests written as JSON: every field, in the order of declaration, without blanks. -/
namespace LiteModel
open Json

namespace TensorDeclaration

def print (t : TensorDeclaration) : List Char :=
  Json.Text.object [
    ("name", Json.Text.string t.name),
    ("shape", Json.Text.array (t.dims.map fun d => Json.Text.digits d.toNat)),
    ("dtype", match t.elementType with
      | some label => Json.Text.string label
      | none => Json.Text.null),
    ("data", Json.Text.string t.data.label)]

end TensorDeclaration

namespace LayerDeclaration

def print (l : LayerDeclaration) : List Char :=
  Json.Text.object [
    ("name", Json.Text.string l.name),
    ("layer_type", Json.Text.string l.layerType),
    ("inputs", Json.Text.strings l.inputs),
    ("outputs", Json.Text.strings l.outputs),
    ("weights", Json.Text.strings l.weights),
    ("properties", Json.Text.object
      (l.properties.entries.map fun (k, v) => (k, Json.Text.string v)))]

end LayerDeclaration

namespace Manifest

def print (m : Manifest) : List Char :=
  Json.Text.object [
    ("name", Json.Text.string m.name),
    ("dtype", Json.Text.string m.elementType),
    ("inputs", Json.Text.strings m.inputs),
    ("outputs", Json.Text.strings m.outputs),
    ("tensors", Json.Text.array (m.tensors.map TensorDeclaration.print)),
    ("layers", Json.Text.array (m.layers.map LayerDeclaration.print))]

def toJson (m : Manifest) : String := String.ofList m.print

end Manifest

end LiteModel
