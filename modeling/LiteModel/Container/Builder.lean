import LiteModel.Word

/-! Bytes of a container, written from the end of the file to its start. An object is known by its
place: the distance from its first byte to the end of the file, which later writing does not
change. References point from an object to one that was written before it, so their distances are
positive. A vtable that was written before is used again. -/
namespace LiteModel.Container

structure Builder where
  bytes : List UInt8 := []
  size : Nat := 0
  vtables : List (List UInt8 × Nat) := []
  size_eq : size = bytes.length := by rfl

instance : Inhabited Builder := ⟨{}⟩

abbrev Write := StateM Builder

namespace Write

def push (bs : List UInt8) : Write Unit :=
  modify fun b => ⟨bs ++ b.bytes, bs.length + b.size, b.vtables, by simp [b.size_eq]⟩

def here : Write Nat := return (← get).size

/-- Zeros in front, so that after `length` more bytes the size is a multiple of `alignment`. -/
def align (length alignment : Nat) : Write Unit := do
  let size ← here
  push (List.replicate ((alignment - (size + length) % alignment) % alignment) 0)

def word (width value : Nat) : Write Unit := do
  align width width
  push (Word.bytes width value)

def reference (place : Nat) : Write Unit := do
  align 4 4
  let size ← here
  push (Word.bytes 4 (size + 4 - place))

def words (values : List Nat) : Write Nat := do
  align (4 * values.length) 4
  push (values.flatMap (Word.bytes 4))
  word 4 values.length
  here

def integers (values : List Int32) : Write Nat :=
  words (values.map fun v => v.toUInt32.toNat)

def bytes (data : List UInt8) : Write Nat := do
  align data.length 4
  push data
  word 4 data.length
  here

def text (s : String) : Write Nat := do
  let data := s.toUTF8.data.toList
  align (data.length + 1) 4
  push (data ++ [0])
  word 4 data.length
  here

def references (places : List Nat) : Write Nat := do
  align (4 * places.length) 4
  let size ← here
  let values := places.mapIdx fun i place => size + 4 * (places.length - i) - place
  push (values.flatMap (Word.bytes 4))
  word 4 places.length
  here

inductive FieldValue where
  | number (width value : Nat)
  | reference (place : Nat)
deriving Repr

structure Field where
  slot : Nat
  value : FieldValue
deriving Repr

def field (f : Field) : Write (Nat × Nat) := do
  match f.value with
  | .number width value => word width value
  | .reference place => reference place
  return (f.slot, ← here)

/-- The bytes of a vtable: its own size, the size of the table in front of the bytes at `tail`, and
for each slot how far into the table at `place` the field stands, zero for a field left out. -/
def vtable (place tail : Nat) (fields : List (Nat × Nat)) : List UInt8 :=
  let size := fields.foldl (fun n f => max n (f.1 + 2)) 4
  let entries := (List.range ((size - 4) / 2)).map fun n =>
    ((fields.lookup (4 + 2 * n)).map (place - ·)).getD 0
  (size :: (place - tail) :: entries).flatMap (Word.bytes 2)

/-- A table: its fields in front of one another in the order given, and in front of them the signed
distance back to its vtable. -/
def table (fields : List Field) : Write Nat := do
  let tail ← here
  let placed ← fields.mapM field
  align 4 4
  let place := (← here) + 4
  let layout := vtable place tail placed
  match (← get).vtables.lookup layout with
  | some earlier =>
    push (Word.bytes 4 ((earlier : Int) - place).toInt32.toUInt32.toNat)
  | none =>
    push (Word.bytes 4 layout.length)
    push layout
    let vtablePlace ← here
    modify fun b => { b with vtables := (layout, vtablePlace) :: b.vtables }
  return place

end Write

def fileOf (identifier : List UInt8) (root : Write Nat) : List UInt8 :=
  let file : Write Unit := do
    let place ← root
    Write.align (4 + identifier.length) 4
    Write.push identifier
    Write.reference place
  (file.run {}).2.bytes

end LiteModel.Container
