import LiteModel.Container.Summary
import LiteModel.Export
import LiteModel.Files.Replacement

/-! Containers as files: exporting a graph to one, and reading one back. A container that is read
back is verified; no graph is ever made of it. -/
namespace LiteModel

inductive ContainerFileError where
  | inaccessible (path : String) (fault : FileFault)
  | notExported (error : ExportError)
  | rejected (fault : Container.VerificationFault)
  | noGraph (path : String)
deriving Repr

def ContainerFileError.message : ContainerFileError → String
  | inaccessible path fault => "I/O error on '" ++ path ++ "': " ++ fault.message
  | notExported error => error.message
  | rejected fault => (ExportError.verification fault).message
  | noGraph path => "no graph produced from '" ++ path ++ "'"

namespace ContainerFile

def read (reader : Files.Reader) (path : String) : Except ContainerFileError (List UInt8) :=
  (reader path).mapError (.inaccessible path)

def summary (reader : Files.Reader) (path : String) :
    Except ContainerFileError Container.Summary := do
  let bytes ← read reader path
  (Container.Summary.ofBytes bytes).mapError .rejected

/-- Ends in an error in every case: that no graph was made, when the container is sound. -/
def restore (reader : Files.Reader) (path : String) : Except ContainerFileError FinalizedGraph := do
  let bytes ← read reader path
  (Container.verify bytes).mapError .rejected
  throw (.noGraph path)

def write (t : Files.Tree) (g : FinalizedGraph) (config : ExportConfig) (path : String) :
    Files.Tree × Except ContainerFileError Export :=
  match g.toContainer config with
  | .error e => (t, .error (.notExported e))
  | .ok e =>
    let (t, written) := t.replaceFile path e.bytes
    (t, (written.map fun _ => e).mapError (.inaccessible path))

end ContainerFile

end LiteModel
