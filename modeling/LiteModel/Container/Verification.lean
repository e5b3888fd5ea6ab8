import LiteModel.Container.Structure
import LiteModel.Container.Decoding

/-! When a file is accepted as a container: it carries the identifier, its structure is sound, and
every index in its content points at something. The checks are made in that order and the first
that fails is reported. -/
namespace LiteModel.Container

inductive TensorList where
  | subgraphInputs (subgraph : Nat)
  | subgraphOutputs (subgraph : Nat)
  | operatorInputs (subgraph operator : Nat)
  | operatorOutputs (subgraph operator : Nat)
deriving DecidableEq, Repr

def TensorList.render : TensorList → String
  | subgraphInputs s => "subgraph " ++ s.repr ++ " inputs"
  | subgraphOutputs s => "subgraph " ++ s.repr ++ " outputs"
  | operatorInputs s o => "subgraph " ++ s.repr ++ " operator " ++ o.repr ++ " inputs"
  | operatorOutputs s o => "subgraph " ++ s.repr ++ " operator " ++ o.repr ++ " outputs"

inductive ReferenceFault where
  | unsupportedVersion (version : UInt32)
  | noSentinel
  | sentinelHasData
  | noSubgraph
  | buffer (subgraph tensor : Nat) (index : UInt32) (count : Nat)
  | operatorCode (subgraph operator : Nat) (index : UInt32) (count : Nat)
  | tensor (list : TensorList) (index : Int32) (count : Nat)
deriving DecidableEq, Repr

def ReferenceFault.message : ReferenceFault → String
  | unsupportedVersion v => "unsupported schema version " ++ v.toNat.repr
  | noSentinel => "buffer table is missing the sentinel entry"
  | sentinelHasData => "buffer 0 must be empty"
  | noSubgraph => "model has no subgraph"
  | buffer s t index count =>
    "subgraph " ++ s.repr ++ " tensor " ++ t.repr ++ ": buffer " ++ index.toNat.repr ++
      " out of range (" ++ count.repr ++ ")"
  | operatorCode s o index count =>
    "subgraph " ++ s.repr ++ " operator " ++ o.repr ++ ": opcode " ++ index.toNat.repr ++
      " out of range (" ++ count.repr ++ ")"
  | tensor list index count =>
    list.render ++ ": tensor " ++ index.toInt.repr ++ " out of range (" ++ count.repr ++ ")"

abbrev Findings := Except ReferenceFault Unit

def require (holds : Bool) (fault : ReferenceFault) : Findings :=
  if holds then .ok () else .error fault

def forEachIndexed {α : Type} (items : List α) (check : Nat → α → Findings) : Findings :=
  items.zipIdx.forM fun (a, i) => check i a

/-- An index of a tensor, or -1 for an operand that is left out. -/
def isTensorIndex (count : Nat) (index : Int32) : Bool :=
  index == -1 || (0 ≤ index.toInt && index.toInt < count)

def checkTensorList (list : TensorList) (count : Nat) (indices : Option (List Int32)) : Findings :=
  (indices.getD []).forM fun index =>
    require (isTensorIndex count index) (.tensor list index count)

namespace Subgraph

def tensorCount (s : Subgraph) : Nat := (s.tensors.getD []).length

def checkReferences (bufferCount codeCount number : Nat) (s : Subgraph) : Findings := do
  forEachIndexed (s.tensors.getD []) fun t entry =>
    require (entry.buffer.toNat < bufferCount) (.buffer number t entry.buffer bufferCount)
  checkTensorList (.subgraphInputs number) s.tensorCount s.inputs
  checkTensorList (.subgraphOutputs number) s.tensorCount s.outputs
  forEachIndexed (s.operators.getD []) fun o entry => do
    require (entry.codeIndex.toNat < codeCount) (.operatorCode number o entry.codeIndex codeCount)
    checkTensorList (.operatorInputs number o) s.tensorCount entry.inputs
    checkTensorList (.operatorOutputs number o) s.tensorCount entry.outputs

end Subgraph

namespace Model

def checkReferences (m : Model) : Findings := do
  require (m.version == supportedVersion) (.unsupportedVersion m.version)
  match m.buffers.getD [] with
  | [] => .error .noSentinel
  | sentinel :: others =>
    require sentinel.isEmpty .sentinelHasData
    match m.subgraphs.getD [] with
    | [] => .error .noSubgraph
    | subgraphs =>
      let codeCount := (m.operatorCodes.getD []).length
      forEachIndexed subgraphs (Subgraph.checkReferences (others.length + 1) codeCount)

end Model

inductive VerificationFault where
  | noIdentifier
  | structure (fault : StructureFault)
  | reference (fault : ReferenceFault)
deriving DecidableEq, Repr

def VerificationFault.message : VerificationFault → String
  | noIdentifier => "missing 'TFL3' file identifier"
  | .structure fault => fault.message
  | reference fault => fault.message

namespace File

def hasIdentifier (file : File) : Bool := file.slice? 4 4 == some identifier

def root (file : File) : Except StructureFault Model := do
  let _ ← file.usage
  match file.content? with
  | some m => return m
  | none => throw .outOfRange

def accept (file : File) : Except VerificationFault Model := do
  if !file.hasIdentifier then throw .noIdentifier
  let m ← file.root.mapError .structure
  m.checkReferences.mapError .reference
  return m

end File

def verify (bytes : List UInt8) : Except VerificationFault Unit := do
  let _ ← File.accept bytes.toArray

end LiteModel.Container
