import LiteModel.Tensor

/-! A session makes tensors one after the other. Each construction that allocates takes the next
buffer id, so ids are never used twice, and a clone shares the storage of the tensor it copies.
A construction that fails leaves the session as it was. -/
namespace LiteModel.Tensor

inductive Construction where
  | zeros (shape : Shape) (elementType : ElementType)
  | bytes (shape : Shape) (elementType : ElementType) (data : List UInt8)
  | values (shape : Shape) (bits : List UInt32)
  | placeholder (shape : Shape) (elementType : ElementType)
  | uninitialized (elementType : ElementType)
  | clone (position : Nat)
deriving Repr

def Construction.allocates : Construction → Bool
  | .zeros .. | .bytes .. | .values .. => true
  | .placeholder .. | .uninitialized _ | .clone _ => false

structure Session where
  tensors : Array Tensor := #[]
  nextBuffer : Nat := 0
deriving Inhabited

namespace Session

def construct (s : Session) : Construction → Except TensorError Tensor
  | .zeros shape t => .ok (Tensor.zeros ⟨s.nextBuffer⟩ shape t)
  | .bytes shape t data => Tensor.ofBytes ⟨s.nextBuffer⟩ shape t data
  | .values shape bits => Tensor.ofValues ⟨s.nextBuffer⟩ shape bits
  | .placeholder shape t => .ok (Tensor.placeholder shape t)
  | .uninitialized t => .ok (Tensor.uninitialized t)
  | .clone position =>
    match s.tensors[position]? with
    | some t => .ok t
    | none => .error (.noSuchTensor position)

def add (s : Session) (c : Construction) : Except TensorError Session := do
  let t ← s.construct c
  return ⟨s.tensors.push t, if c.allocates then s.nextBuffer + 1 else s.nextBuffer⟩

def run (s : Session) : List Construction → Session
  | [] => s
  | c :: rest =>
    match s.add c with
    | .ok next => next.run rest
    | .error _ => s.run rest

end Session

end LiteModel.Tensor
