import LiteModel.Shape

/-! Tensors and the storage that holds their elements. Two tensors hold the same storage when the
storages have one `BufferId`, whatever their bytes are: comparing storages compares the ids. -/
namespace LiteModel

structure BufferId where
  number : Nat
deriving DecidableEq, Repr, Inhabited

structure Storage where
  id : BufferId
  /-- The bytes, which are not made before they are asked for. -/
  content : Thunk (List UInt8)
  size : Nat
  size_eq : size = content.get.length

namespace Storage

def bytes (s : Storage) : List UInt8 := s.content.get

def ofBytes (id : BufferId) (bytes : List UInt8) : Storage := ⟨id, .pure bytes, bytes.length, rfl⟩

def zeros (id : BufferId) (count : Nat) : Storage :=
  ⟨id, ⟨fun _ => List.replicate count 0⟩, count, List.length_replicate.symm⟩

theorem size_eq_length (s : Storage) : s.size = s.bytes.length := s.size_eq

@[simp] theorem id_ofBytes (id : BufferId) (bs : List UInt8) : (ofBytes id bs).id = id := rfl

@[simp] theorem bytes_ofBytes (id : BufferId) (bs : List UInt8) : (ofBytes id bs).bytes = bs := rfl

@[simp] theorem id_zeros (id : BufferId) (count : Nat) : (zeros id count).id = id := rfl

@[simp] theorem bytes_zeros (id : BufferId) (count : Nat) :
    (zeros id count).bytes = List.replicate count 0 := rfl

/-- Storages are the same if their ids and their bytes are. -/
@[ext] theorem ext {s t : Storage} (id : s.id = t.id) (bytes : s.bytes = t.bytes) : s = t := by
  obtain ⟨_, content, _, rfl⟩ := s
  obtain ⟨_, other, _, rfl⟩ := t
  cases id
  cases Thunk.ext bytes
  rfl

instance : Inhabited Storage := ⟨ofBytes default []⟩

instance : Repr Storage := ⟨fun s _ => repr (s.id, s.bytes)⟩

instance : BEq Storage := ⟨fun a b => a.id == b.id⟩

theorem beq_iff (a b : Storage) : (a == b) = true ↔ a.id = b.id := by
  show (a.id == b.id) = true ↔ a.id = b.id
  exact beq_iff_eq

instance : EquivBEq Storage where
  rfl {a} := (beq_iff a a).2 rfl
  symm {a b} h := (beq_iff b a).2 ((beq_iff a b).1 h).symm
  trans {a b c} h k := (beq_iff a c).2 (((beq_iff a b).1 h).trans ((beq_iff b c).1 k))

end Storage

structure Tensor where
  shape : Shape
  elementType : ElementType
  storage : Option Storage
deriving Repr, Inhabited

inductive TensorError where
  | sizeMismatch (expected actual : Nat)
  | noSuchTensor (position : Nat)
deriving DecidableEq, Repr

def TensorError.message : TensorError → String
  | sizeMismatch expected actual =>
    "shape mismatch: expected " ++ expected.repr ++ " bytes, got " ++ actual.repr
  | noSuchTensor position => "no tensor at position " ++ position.repr

namespace Tensor

def zeros (id : BufferId) (shape : Shape) (t : ElementType) : Tensor :=
  ⟨shape, t, some (.zeros id (shape.byteSize t).toNat)⟩

def ofBytes (id : BufferId) (shape : Shape) (t : ElementType) (bytes : List UInt8) :
    Except TensorError Tensor :=
  let expected := (shape.byteSize t).toNat
  if bytes.length = expected then .ok ⟨shape, t, some (.ofBytes id bytes)⟩
  else .error (.sizeMismatch expected bytes.length)

def ofValues (id : BufferId) (shape : Shape) (values : List UInt32) : Except TensorError Tensor :=
  if values.length = shape.elementCount.toNat then
    .ok ⟨shape, .f32, some (.ofBytes id (values.flatMap fun v => Word.bytes 4 v.toNat))⟩
  else
    .error (.sizeMismatch (shape.byteSize .f32).toNat (values.length * 4))

def placeholder (shape : Shape) (t : ElementType) : Tensor := ⟨shape, t, none⟩

def uninitialized (t : ElementType) : Tensor := ⟨Shape.vector 0, t, none⟩

def isInitialized (t : Tensor) : Bool := !t.shape.isEmpty

def isAllocated (t : Tensor) : Bool := t.storage.isSome

def bytes? (t : Tensor) : Option (List UInt8) := t.storage.map (·.bytes)

def byteSize (t : Tensor) : UInt64 := t.shape.byteSize t.elementType

/-- The words of four bytes each; a shorter rest is dropped. -/
def words : List UInt8 → List UInt32
  | a :: b :: c :: d :: rest => UInt32.ofNat (Word.ofBytes [a, b, c, d]) :: words rest
  | _ => []

def values? (t : Tensor) : Option (List UInt32) :=
  if t.elementType = .f32 then t.bytes?.map words else none

def sharesStorage (a b : Tensor) : Bool := a.storage == b.storage

end Tensor

end LiteModel
