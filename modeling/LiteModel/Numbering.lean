/-! Numberings give the distinct values among those added the numbers 0, 1, 2, … in the order in
which each first appeared. Adding a value that is present changes nothing, so a number once given
stays. Values count as the same when `==` says so. -/
namespace LiteModel

structure Numbering (α : Type) where
  values : List α
deriving Repr, Inhabited

namespace Numbering
variable {α : Type} [BEq α]

def empty : Numbering α := ⟨[]⟩

def size (n : Numbering α) : Nat := n.values.length

def isEmpty (n : Numbering α) : Bool := n.values.isEmpty

def contains (n : Numbering α) (a : α) : Bool := n.values.any (· == a)

def indexOf? (n : Numbering α) (a : α) : Option Nat := n.values.findIdx? (· == a)

def add (n : Numbering α) (a : α) : Numbering α :=
  if n.contains a then n else ⟨n.values ++ [a]⟩

def addAll (n : Numbering α) (as : List α) : Numbering α := as.foldl add n

theorem indexOf?_congr [EquivBEq α] (n : Numbering α) {a b : α} (same : (a == b) = true) :
    n.indexOf? a = n.indexOf? b := by
  have alike : (· == a) = (· == b) := funext fun _ => BEq.congr_right same
  rw [indexOf?, indexOf?, alike]

theorem isSome_indexOf? (n : Numbering α) (a : α) : (n.indexOf? a).isSome = n.contains a :=
  List.findIdx?_isSome

theorem indexOf?_add (n : Numbering α) (a b : α) : (n.add a).indexOf? b =
    (n.indexOf? b).or (if n.contains a = false ∧ (a == b) = true then some n.size else none) := by
  by_cases present : n.contains a = true
  · simp [add, present]
  · have absent : n.contains a = false := by simpa using present
    by_cases same : (a == b) = true
    · simp [add, indexOf?, absent, same, size, List.findIdx?_append]
    · simp [add, indexOf?, absent, same, List.findIdx?_append]

end Numbering

end LiteModel
