import LiteModel.Numbering

/-! Numberings with a table of the numbers that they gave, so that a value is looked up and not
searched for. The table and the list of values are filled side by side: a value that the table does
not have gets the length of the list for its number. Numbers are words of 32 bits; as long as there
are no more values than words, the number of a value is its place in the list. -/
namespace LiteModel.Numbering

variable {α : Type} [BEq α]

theorem lookup_cons {β : Type} {a b : α} {i : β} {entries : List (α × β)} :
    ((a, i) :: entries).lookup b = if (b == a) = true then some i else entries.lookup b := by
  rw [List.lookup_cons]
  cases b == a <;> rfl

structure Table (α : Type) [BEq α] extends Numbering α where
  /-- The values with their numbers, the latest first. -/
  numbers : List (α × UInt32)
  agrees : ∀ a, numbers.lookup a = (toNumbering.indexOf? a).map UInt32.ofNat
deriving Repr

namespace Table

def empty : Table α := ⟨.empty, [], fun _ => rfl⟩

instance : Inhabited (Table α) := ⟨empty⟩

def contains (t : Table α) (a : α) : Bool := (t.numbers.lookup a).isSome

def indexOf? (t : Table α) (a : α) : Option UInt32 := t.numbers.lookup a

def valueAt? (t : Table α) (i : UInt32) : Option α := t.values[i.toNat]?

theorem contains_eq (t : Table α) (a : α) : t.contains a = t.toNumbering.contains a := by
  rw [contains, t.agrees, Option.isSome_map, isSome_indexOf?]

theorem add_of_lookup {t : Table α} {a : α} (new : t.numbers.lookup a = none) :
    t.toNumbering.add a = ⟨t.values ++ [a]⟩ := by
  have absent : t.toNumbering.contains a = false := by rw [← contains_eq, contains, new]; rfl
  rw [Numbering.add, absent, if_neg Bool.false_ne_true]

variable [EquivBEq α]

theorem agrees_concat {t : Table α} {a : α} (new : t.numbers.lookup a = none) (b : α) :
    ((a, UInt32.ofNat t.values.length) :: t.numbers).lookup b =
      ((⟨t.values ++ [a]⟩ : Numbering α).indexOf? b).map UInt32.ofNat := by
  have absent : t.toNumbering.contains a = false := by rw [← contains_eq, contains, new]; rfl
  rw [lookup_cons, ← add_of_lookup new, indexOf?_add, t.agrees, absent]
  by_cases same : (a == b) = true
  · have none : (t.toNumbering.indexOf? b).map UInt32.ofNat = none := by
      rw [← indexOf?_congr _ same, ← t.agrees, new]
    rw [if_pos (BEq.symm same), if_pos ⟨rfl, same⟩, Option.map_eq_none_iff.1 none]
    rfl
  · rw [if_neg fun equal => same (BEq.symm equal), if_neg fun both => same both.2, Option.or_none]

def add (t : Table α) (a : α) : Table α × UInt32 :=
  match new : t.numbers.lookup a with
  | some i => (t, i)
  | none =>
    let i := UInt32.ofNat t.values.length
    (⟨⟨t.values ++ [a]⟩, (a, i) :: t.numbers, agrees_concat new⟩, i)

def addEach (t : Table α) : List α → Table α × List UInt32
  | [] => (t, [])
  | a :: rest =>
    let (next, i) := t.add a
    let (last, is) := next.addEach rest
    (last, i :: is)

def addAll (t : Table α) (as : List α) : Table α := as.foldl (fun t a => (t.add a).1) t

def ofList (as : List α) : Table α := empty.addAll as

end Table

end LiteModel.Numbering
