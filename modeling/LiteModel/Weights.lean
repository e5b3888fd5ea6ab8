import LiteModel.Tensor

/-! Named weight tensors. Of a name that is given twice, the tensor given last counts. -/
namespace LiteModel

structure Weights where
  entries : List (String × Tensor) := []
deriving Repr, Inhabited

namespace Weights

def insert (w : Weights) (name : String) (tensor : Tensor) : Weights :=
  ⟨(name, tensor) :: w.entries⟩

def find? (w : Weights) (name : String) : Option Tensor := w.entries.lookup name

def ofList (entries : List (String × Tensor)) : Weights :=
  entries.foldl (fun w e => w.insert e.1 e.2) {}

end Weights

end LiteModel
