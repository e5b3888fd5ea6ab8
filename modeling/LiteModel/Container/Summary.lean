import LiteModel.Container.Verification
import LiteModel.Operator
import LiteModel.ElementType
import LiteModel.Text.Bracketed
import LiteModel.Decimal.Rounding

/-! Summaries of accepted containers: the structure of the first subgraph with the sizes of all
buffers, without their data. -/
namespace LiteModel.Container

structure TensorSummary where
  name : Option String
  shape : List Int32
  typeCode : Int8
  buffer : UInt32
deriving DecidableEq, Repr

structure OperatorSummary where
  codeIndex : UInt32
  kind : Option OperatorKind
  inputs : List Int32
  outputs : List Int32
  options : Option OperatorOptions
deriving DecidableEq, Repr

structure Summary where
  version : UInt32
  description : Option String
  operatorCodes : List Int32
  bufferSizes : List Nat
  subgraphName : Option String
  tensors : List TensorSummary
  operators : List OperatorSummary
  inputs : List Int32
  outputs : List Int32
deriving DecidableEq, Repr

def Options.known? : Options → Option OperatorOptions
  | fullyConnected activation => (Activation.ofCode? activation).map .fullyConnected
  | softmax beta => some (.softmax beta)
  | other _ => none

namespace Summary

def ofTensor (t : TensorEntry) : TensorSummary where
  name := t.name
  shape := t.shape.getD []
  typeCode := t.typeCode
  buffer := t.buffer

def ofOperator (codes : List Int32) (o : OperatorEntry) : OperatorSummary where
  codeIndex := o.codeIndex
  kind := codes[o.codeIndex.toNat]?.bind OperatorKind.ofCode?
  inputs := o.inputs.getD []
  outputs := o.outputs.getD []
  options := o.options.known?

def ofModel (m : Model) (s : Subgraph) : Summary :=
  let codes := (m.operatorCodes.getD []).map (·.effective)
  { version := m.version
    description := m.description
    operatorCodes := codes
    bufferSizes := (m.buffers.getD []).map (·.size)
    subgraphName := s.name
    tensors := (s.tensors.getD []).map ofTensor
    operators := (s.operators.getD []).map (ofOperator codes)
    inputs := s.inputs.getD []
    outputs := s.outputs.getD [] }

def ofFile (file : File) : Except VerificationFault Summary := do
  let m ← file.accept
  match m.subgraphs.getD [] with
  | [] => throw (.reference .noSubgraph)
  | s :: _ => return ofModel m s

def ofBytes (bytes : List UInt8) : Except VerificationFault Summary := ofFile bytes.toArray

def totalBufferBytes (s : Summary) : Nat := Word.total s.bufferSizes

def tensorLine (i : Nat) (t : TensorSummary) : String :=
  let type := ((ElementType.ofCode? t.typeCode).map (·.label)).getD
    ("type#" ++ t.typeCode.toInt.repr)
  "    [" ++ Text.alignRight 3 i.repr ++ "] " ++ Text.alignLeft 24 (t.name.getD "-") ++ " " ++
    Text.integers t.shape ++ " " ++ type ++ " buffer=" ++ t.buffer.toNat.repr ++ "\n"

def operatorLine (i : Nat) (o : OperatorSummary) : String :=
  let kind := (o.kind.map (·.name)).getD ("opcode#" ++ o.codeIndex.toNat.repr)
  "    [" ++ Text.alignRight 3 i.repr ++ "] " ++ Text.alignLeft 16 kind ++ " in=" ++
    Text.integers o.inputs ++ " out=" ++ Text.integers o.outputs ++ "\n"

def numbered {α : Type} (line : Nat → α → String) (items : List α) : String :=
  String.join (items.mapIdx line)

def render (s : Summary) : String :=
  "TFLite model v" ++ s.version.toNat.repr ++ " (" ++ s.description.getD "no description" ++
    ")\n" ++
  "  " ++ s.operatorCodes.length.repr ++ " operator codes, " ++ s.bufferSizes.length.repr ++
    " buffers (" ++ Decimal.kilobytes s.totalBufferBytes ++ " KB), " ++
    s.tensors.length.repr ++ " tensors, " ++ s.operators.length.repr ++ " operators\n" ++
  "  subgraph '" ++ s.subgraphName.getD "" ++ "': inputs " ++ Text.integers s.inputs ++
    ", outputs " ++ Text.integers s.outputs ++ "\n" ++
  "  tensors:\n" ++ numbered tensorLine s.tensors ++
  "  operators:\n" ++ numbered operatorLine s.operators

end Summary

end LiteModel.Container
