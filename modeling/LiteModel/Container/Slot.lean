/-! The slots of the tables: field number `n` of a table has its offset at byte `4 + 2 * n` of the
table's vtable. -/
namespace LiteModel.Container.Slot

def ofField (n : Nat) : Nat := 4 + 2 * n

namespace Model

def version := ofField 0
def operatorCodes := ofField 1
def subgraphs := ofField 2
def description := ofField 3
def buffers := ofField 4

end Model

namespace OperatorCode

def deprecatedCode := ofField 0
def customCode := ofField 1
def version := ofField 2
def builtinCode := ofField 3

end OperatorCode

namespace Subgraph

def tensors := ofField 0
def inputs := ofField 1
def outputs := ofField 2
def operators := ofField 3
def name := ofField 4

end Subgraph

namespace Tensor

def shape := ofField 0
def typeCode := ofField 1
def buffer := ofField 2
def name := ofField 3

end Tensor

namespace Operator

def codeIndex := ofField 0
def inputs := ofField 1
def outputs := ofField 2
def optionsTag := ofField 3
def options := ofField 4

end Operator

namespace Buffer

def data := ofField 0

end Buffer

namespace FullyConnected

def activation := ofField 0
def weightsFormat := ofField 1
def keepDimensions := ofField 2

end FullyConnected

namespace Softmax

def beta := ofField 0

end Softmax

end LiteModel.Container.Slot
