import LiteModel.Files.Fault
import LiteModel.Files.Path
import LiteModel.Manifest.Reader
import LiteModel.Manifest.Graph
import LiteModel.Weights.Archive

/-! Models as directories hold them: a manifest, and an archive of weights that is opened only when
the manifest declares a tensor with data. -/
namespace LiteModel

inductive LoadError where
  | unreadable (fault : FileFault)
  | malformed (error : Json.DecodeError)
  | weightsUnreadable (path : String) (fault : FileFault)
  | weightsNotMapped
  | archive (fault : ArchiveFault)
  | unsupportedType (type : StoredType)
  | tensor (error : TensorError)
  | model (error : ModelError)
deriving Repr

def LoadError.message : LoadError → String
  | unreadable fault => "failed to read manifest: " ++ fault.message
  | malformed error => "failed to parse manifest: " ++ error.message
  | weightsUnreadable path fault =>
    "failed to load SafeTensors: cannot open '" ++ path ++ "': " ++ fault.message
  | weightsNotMapped => "failed to load SafeTensors: mmap failed: No such device (os error 19)"
  | archive fault => "failed to load SafeTensors: SafeTensors parse error: " ++ fault.message
  | unsupportedType type =>
    "failed to load SafeTensors: unsupported SafeTensors dtype: " ++ type.label
  | tensor error => "tensor error: " ++ error.message
  | model error => error.message

def Manifest.ofFile (read : Files.Reader) (path : String) : Except LoadError Manifest := do
  let text ← (read.text path).mapError .unreadable
  (Manifest.ofJson text).mapError .malformed

def Manifest.stored (m : Manifest) : List TensorDeclaration :=
  m.tensors.filter (·.data == .safetensors)

namespace Archive

def tensor (a : Archive) (id : BufferId) (name : String) : Except LoadError Tensor := do
  let some e := a.find? name | throw (.model (.weightNotFound name))
  let some type := e.type.elementType? | throw (.unsupportedType e.type)
  (Tensor.ofBytes id ⟨e.dims⟩ type (a.bytesOf e)).mapError .tensor

def weights (a : Archive) (names : List String) : Except LoadError Weights := do
  let tensors ← names.zipIdx.mapM fun (name, i) => return (name, ← a.tensor ⟨i⟩ name)
  return .ofList tensors

end Archive

namespace ModelDirectory

def manifestName : String := "model.json"

def weightsName : String := "model.safetensors"

def manifestPath (directory : String) : String := Files.Path.join directory manifestName

def weightsPath (directory : String) : String := Files.Path.join directory weightsName

def readArchive (read : Files.Reader) (path : String) : Except LoadError Archive :=
  match read path with
  | .ok bytes => (Archive.ofBytes bytes).mapError .archive
  | .error .isADirectory => .error .weightsNotMapped
  | .error fault => .error (.weightsUnreadable path fault)

def readWeights (read : Files.Reader) (directory : String) (m : Manifest) :
    Except LoadError Weights := do
  let archive ← readArchive read (weightsPath directory)
  archive.weights (m.stored.map (·.name))

def load (read : Files.Reader) (directory : String) : Except LoadError FinalizedGraph := do
  let m ← Manifest.ofFile read (manifestPath directory)
  m.validate.mapError fun fault => .model (.manifest fault)
  let weights ← if m.needsWeights then readWeights read directory m else .ok {}
  (m.toGraph weights).mapError .model

end ModelDirectory

end LiteModel
