/-! The operators that a container can hold, the layer types that stand for them, and the options
that an operator carries. -/
namespace LiteModel

inductive OperatorKind where
  | fullyConnected
  | add
  | relu
  | logistic
  | tanh
  | softmax
  | reshape
deriving DecidableEq, Repr, Inhabited

instance : EquivBEq OperatorKind := inferInstance

namespace OperatorKind

def all : List OperatorKind := [fullyConnected, add, relu, logistic, tanh, softmax, reshape]

def ofName? : String → Option OperatorKind
  | "fully_connected" | "fc" | "dense" | "linear" => some fullyConnected
  | "add" | "addition" => some add
  | "relu" => some relu
  | "logistic" | "sigmoid" => some logistic
  | "tanh" => some tanh
  | "softmax" => some softmax
  | "reshape" | "flatten" => some reshape
  | _ => none

def ofLayerType? (layerType : String) : Option OperatorKind :=
  ofName? (layerType.map Char.toLower)

def code : OperatorKind → Int32
  | add => 0
  | fullyConnected => 9
  | logistic => 14
  | relu => 19
  | reshape => 22
  | softmax => 25
  | tanh => 28

def ofCode? (code : Int32) : Option OperatorKind :=
  all.find? (·.code == code)

theorem ofCode?_code (k : OperatorKind) : ofCode? k.code = some k := by cases k <;> decide

def name : OperatorKind → String
  | fullyConnected => "FULLY_CONNECTED"
  | add => "ADD"
  | relu => "RELU"
  | logistic => "LOGISTIC"
  | tanh => "TANH"
  | softmax => "SOFTMAX"
  | reshape => "RESHAPE"

def title : OperatorKind → String
  | fullyConnected => "FullyConnected"
  | add => "Add"
  | relu => "Relu"
  | logistic => "Logistic"
  | tanh => "Tanh"
  | softmax => "Softmax"
  | reshape => "Reshape"

end OperatorKind

inductive Activation where
  | none
  | relu
  | reluN1To1
  | relu6
  | tanh
deriving DecidableEq, Repr, Inhabited

namespace Activation

def all : List Activation := [none, relu, reluN1To1, relu6, tanh]

def ofName? : String → Option Activation
  | "none" | "linear" => some none
  | "relu" => some relu
  | "relu_n1_to_1" => some reluN1To1
  | "relu6" => some relu6
  | "tanh" => some tanh
  | _ => Option.none

def ofProperty? (value : String) : Option Activation :=
  ofName? (value.map Char.toLower)

def code : Activation → Int8
  | none => 0
  | relu => 1
  | reluN1To1 => 2
  | relu6 => 3
  | tanh => 4

def ofCode? (code : Int8) : Option Activation :=
  all.find? (·.code == code)

theorem ofCode?_code (a : Activation) : ofCode? a.code = some a := by cases a <;> decide

def title : Activation → String
  | none => "None"
  | relu => "Relu"
  | reluN1To1 => "ReluN1To1"
  | relu6 => "Relu6"
  | tanh => "Tanh"

end Activation

/-- The options of an operator; a softmax operator's `beta` is given by the bits of its 32-bit
floating-point value. -/
inductive OperatorOptions where
  | fullyConnected (activation : Activation)
  | softmax (beta : UInt32)
deriving DecidableEq, Repr

end LiteModel
