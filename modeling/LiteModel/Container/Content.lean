/-! What a model container holds, apart from how its bytes lie: operator codes, buffers, and
subgraphs with their tensors and operators. A field that a container may leave out is optional; a
number that is left out has its default value. -/
namespace LiteModel.Container

structure OperatorCode where
  deprecatedCode : Int8 := 0
  version : Int32 := 1
  builtinCode : Int32 := 0
deriving DecidableEq, Repr, Inhabited

/-- The code that counts: small codes may be written in the deprecated field alone. -/
def OperatorCode.effective (c : OperatorCode) : Int32 :=
  max c.builtinCode c.deprecatedCode.toInt32

structure Buffer where
  data : Option (List UInt8) := none
deriving DecidableEq, Repr, Inhabited

namespace Buffer

def size (b : Buffer) : Nat := (b.data.map List.length).getD 0

def isEmpty (b : Buffer) : Bool := b.size == 0

end Buffer

structure TensorEntry where
  shape : Option (List Int32) := none
  typeCode : Int8 := 0
  buffer : UInt32 := 0
  name : Option String := none
deriving DecidableEq, Repr, Inhabited

/-- The options beside an operator. Options under any other tag are not looked into; tag 0 means
that there are none. -/
inductive Options where
  | fullyConnected (activation : Int8)
  | softmax (beta : UInt32)
  | other (tag : UInt8)
deriving DecidableEq, Repr

instance : Inhabited Options := ⟨.other 0⟩

namespace Options

def fullyConnectedTag : UInt8 := 8

def softmaxTag : UInt8 := 9

def tag : Options → UInt8
  | fullyConnected _ => fullyConnectedTag
  | softmax _ => softmaxTag
  | other tag => tag

end Options

structure OperatorEntry where
  codeIndex : UInt32 := 0
  inputs : Option (List Int32) := none
  outputs : Option (List Int32) := none
  options : Options := default
deriving DecidableEq, Repr, Inhabited

structure Subgraph where
  tensors : Option (List TensorEntry) := none
  inputs : Option (List Int32) := none
  outputs : Option (List Int32) := none
  operators : Option (List OperatorEntry) := none
  name : Option String := none
deriving DecidableEq, Repr, Inhabited

structure Model where
  version : UInt32 := 0
  operatorCodes : Option (List OperatorCode) := none
  subgraphs : Option (List Subgraph) := none
  description : Option String := none
  buffers : Option (List Buffer) := none
deriving DecidableEq, Repr, Inhabited

def identifier : List UInt8 := [0x54, 0x46, 0x4c, 0x33]

def supportedVersion : UInt32 := 3

end LiteModel.Container
