import LiteModel.Manifest
import LiteModel.Json.Decoding

/-! Manifests read from JSON. A record is a map, in which unknown keys are passed over and no known
key stands twice, or an array of its fields in order. Fields with a default may be left out; in an
array, only from the end. -/
namespace LiteModel
open Json

namespace DataSource

def read (t : Tree) : Decoded DataSource := ofLabel <$> t.readVariant ["none", "safetensors"]

end DataSource

namespace TensorDeclaration

def record : Record := ⟨"ManifestTensor", 4⟩

structure Fields where
  name : Option String := none
  dims : Option (List UInt64) := none
  elementType : Option (Option String) := none
  data : Option DataSource := none

def Fields.add (f : Fields) (member : Option String × Tree) : Decoded Fields := do
  let t := member.2
  match ← Tree.readKey member.1 with
  | "name" => return { f with name := ← Tree.fill "name" Tree.readString f.name t }
  | "shape" => return { f with dims := ← Tree.fill "shape" (Tree.readList Tree.readSize) f.dims t }
  | "dtype" =>
    return { f with elementType := ← Tree.fill "dtype" Tree.readOptionalString f.elementType t }
  | "data" => return { f with data := ← Tree.fill "data" DataSource.read f.data t }
  | _ => return f

def Fields.finish (f : Fields) : Decoded TensorDeclaration := do
  return {
    name := ← Tree.require "name" f.name
    dims := ← Tree.require "shape" f.dims
    elementType := f.elementType.getD none
    data := f.data.getD .none }

def elements : Elements.Reader TensorDeclaration := do
  return {
    name := ← Elements.required record 0 Tree.readString
    dims := ← Elements.required record 1 (Tree.readList Tree.readSize)
    elementType := ← Elements.optional none Tree.readOptionalString
    data := ← Elements.optional .none DataSource.read }

def read : Tree → Decoded TensorDeclaration
  | .object members ending => do
    let fields ← members.foldlM Fields.add {}
    (← Tree.ended ending fields).finish
  | .array items ending => Elements.decode elements items ending
  | t => t.mismatch record.expected

end TensorDeclaration

namespace LayerDeclaration

def record : Record := ⟨"ManifestLayer", 6⟩

structure Fields where
  name : Option String := none
  layerType : Option String := none
  inputs : Option (List String) := none
  outputs : Option (List String) := none
  weights : Option (List String) := none
  properties : Option Properties := none

def strings : Tree → Decoded (List String) := Tree.readList Tree.readString

/-- Of a key that stands twice, the last value counts. -/
def readProperties (t : Tree) : Decoded Properties := Properties.ofList <$> t.readPairs

def Fields.add (f : Fields) (member : Option String × Tree) : Decoded Fields := do
  let t := member.2
  match ← Tree.readKey member.1 with
  | "name" => return { f with name := ← Tree.fill "name" Tree.readString f.name t }
  | "layer_type" =>
    return { f with layerType := ← Tree.fill "layer_type" Tree.readString f.layerType t }
  | "inputs" => return { f with inputs := ← Tree.fill "inputs" strings f.inputs t }
  | "outputs" => return { f with outputs := ← Tree.fill "outputs" strings f.outputs t }
  | "weights" => return { f with weights := ← Tree.fill "weights" strings f.weights t }
  | "properties" =>
    return { f with properties := ← Tree.fill "properties" readProperties f.properties t }
  | _ => return f

def Fields.finish (f : Fields) : Decoded LayerDeclaration := do
  return {
    name := ← Tree.require "name" f.name
    layerType := ← Tree.require "layer_type" f.layerType
    inputs := f.inputs.getD []
    outputs := f.outputs.getD []
    weights := f.weights.getD []
    properties := f.properties.getD .empty }

def elements : Elements.Reader LayerDeclaration := do
  return {
    name := ← Elements.required record 0 Tree.readString
    layerType := ← Elements.required record 1 Tree.readString
    inputs := ← Elements.optional [] strings
    outputs := ← Elements.optional [] strings
    weights := ← Elements.optional [] strings
    properties := ← Elements.optional .empty readProperties }

def read : Tree → Decoded LayerDeclaration
  | .object members ending => do
    let fields ← members.foldlM Fields.add {}
    (← Tree.ended ending fields).finish
  | .array items ending => Elements.decode elements items ending
  | t => t.mismatch record.expected

end LayerDeclaration

namespace Manifest

def record : Record := ⟨"ModelManifest", 6⟩

def defaultLabel : String := "f32"

structure Fields where
  name : Option String := none
  elementType : Option String := none
  inputs : Option (List String) := none
  outputs : Option (List String) := none
  tensors : Option (List TensorDeclaration) := none
  layers : Option (List LayerDeclaration) := none

def strings : Tree → Decoded (List String) := Tree.readList Tree.readString

def Fields.add (f : Fields) (member : Option String × Tree) : Decoded Fields := do
  let t := member.2
  match ← Tree.readKey member.1 with
  | "name" => return { f with name := ← Tree.fill "name" Tree.readString f.name t }
  | "dtype" => return { f with elementType := ← Tree.fill "dtype" Tree.readString f.elementType t }
  | "inputs" => return { f with inputs := ← Tree.fill "inputs" strings f.inputs t }
  | "outputs" => return { f with outputs := ← Tree.fill "outputs" strings f.outputs t }
  | "tensors" =>
    return { f with
      tensors := ← Tree.fill "tensors" (Tree.readList TensorDeclaration.read) f.tensors t }
  | "layers" =>
    return { f with
      layers := ← Tree.fill "layers" (Tree.readList LayerDeclaration.read) f.layers t }
  | _ => return f

def Fields.finish (f : Fields) : Decoded Manifest := do
  return {
    name := ← Tree.require "name" f.name
    elementType := f.elementType.getD defaultLabel
    inputs := f.inputs.getD []
    outputs := f.outputs.getD []
    tensors := ← Tree.require "tensors" f.tensors
    layers := ← Tree.require "layers" f.layers }

def elements : Elements.Reader Manifest := do
  return {
    name := ← Elements.required record 0 Tree.readString
    elementType := ← Elements.optional defaultLabel Tree.readString
    inputs := ← Elements.optional [] strings
    outputs := ← Elements.optional [] strings
    tensors := ← Elements.required record 4 (Tree.readList TensorDeclaration.read)
    layers := ← Elements.required record 5 (Tree.readList LayerDeclaration.read) }

def read : Tree → Decoded Manifest
  | .object members ending => do
    let fields ← members.foldlM Fields.add {}
    (← Tree.ended ending fields).finish
  | .array items ending => Elements.decode elements items ending
  | t => t.mismatch record.expected

def ofJson (text : String) : Decoded Manifest := Json.decode read text

end Manifest

end LiteModel
