import LiteModel.Export.Config
import LiteModel.Files.Fault
import LiteModel.Toml.Document
import LiteModel.Toml.Quoting

/-! Export configurations as TOML documents. Each setting is a key of the top level; a key that is
missing has its default, and keys of other names are passed over. A subgraph name that is not set
is not written. -/
namespace LiteModel

inductive ConfigError where
  | unreadable (path : String) (fault : FileFault)
  | malformed
deriving DecidableEq, Repr

def ConfigError.message : ConfigError → String
  | unreadable path fault =>
    "configuration error: cannot read config '" ++ path ++ "': " ++ fault.message
  | malformed => "configuration error: TOML parse error"

namespace ExportConfig
open Toml

def textEntry? (entries : Entries) (key : String) : Option (Option String) :=
  match entries.lookup key with
  | none => some none
  | some (.value (.text s)) => some (some s)
  | some _ => none

def boolEntry? (entries : Entries) (key : String) : Option (Option Bool) :=
  match entries.lookup key with
  | none => some none
  | some (.value (.bool b)) => some (some b)
  | some _ => none

def ofEntries? (entries : Entries) : Option ExportConfig := do
  let base : ExportConfig := {}
  return {
    description := (← textEntry? entries "description").getD base.description
    subgraphName := ← textEntry? entries "subgraph_name"
    tensorNames := (← boolEntry? entries "tensor_names").getD base.tensorNames }

def ofToml? (text : String) : Option ExportConfig := do
  ofEntries? (← Document.parse? text.toList)

def ofFile (read : Files.Reader) (path : String) : Except ConfigError ExportConfig := do
  let text ← (read.text path).mapError (.unreadable path)
  match ofToml? text with
  | some c => .ok c
  | none => .error .malformed

def line (key : String) (value : List Char) : List Char :=
  key.toList ++ [' ', '=', ' '] ++ value ++ ['\n']

def print (c : ExportConfig) : List Char :=
  line "description" (Quoting.string c.description.toList) ++
    (match c.subgraphName with
      | some name => line "subgraph_name" (Quoting.string name.toList)
      | none => []) ++
    line "tensor_names" (if c.tensorNames then "true".toList else "false".toList)

def toToml (c : ExportConfig) : String := String.ofList c.print

end ExportConfig

end LiteModel
