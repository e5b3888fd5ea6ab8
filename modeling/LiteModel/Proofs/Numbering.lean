import LiteModel.Numbering

/-! Numberings as lists without repeats. What a numbering holds after values were added is what it
held before and then each new value where it first appeared; a value's number is its position. -/
namespace LiteModel.Numbering

variable {α : Type} [BEq α]

theorem addAll_cons (n : Numbering α) (a : α) (as : List α) :
    n.addAll (a :: as) = (n.add a).addAll as := rfl

theorem values_addAll [EquivBEq α] (n : Numbering α) (as : List α) :
    (n.addAll as).values = n.values ++ (as.filter fun a => !n.contains a).eraseDups := by
  induction as generalizing n with
  | nil => simp [addAll]
  | cons a rest ih =>
    rw [addAll_cons, ih]
    by_cases present : n.contains a = true
    · simp [add, present]
    · have absent : n.contains a = false := by simpa using present
      have others : ∀ b, (!(Numbering.mk (n.values ++ [a])).contains b) =
          (!(b == a) && !n.contains b) := by
        intro b
        simp only [contains, List.any_append, List.any_cons, List.any_nil, Bool.or_false,
          Bool.not_or, BEq.comm (a := a) (b := b)]
        exact Bool.and_comm _ _
      simp only [add, absent, Bool.false_eq_true, if_false, others, List.append_assoc,
        List.filter_cons, Bool.not_false, if_true, List.eraseDups_cons, List.filter_filter,
        List.singleton_append]

theorem values_ofList [EquivBEq α] (as : List α) :
    ((empty : Numbering α).addAll as).values = as.eraseDups := by
  have all : (as.filter fun a => !(empty : Numbering α).contains a) = as :=
    List.filter_eq_self.2 fun _ _ => rfl
  rw [values_addAll, all]
  rfl

/-- Collecting each value that is not there yet is a numbering. -/
theorem foldl_collect [EquivBEq α] (n : Numbering α) (as : List α) :
    as.foldl (fun seen a => if seen.contains a then seen else seen ++ [a]) n.values =
      (n.addAll as).values := by
  induction as generalizing n with
  | nil => rfl
  | cons a rest ih =>
    have same : n.values.contains a = n.contains a := by
      rw [List.contains_eq_any_beq, contains]
      simp only [BEq.comm (a := a)]
    have step : (if n.values.contains a then n.values else n.values ++ [a]) = (n.add a).values := by
      rw [same, add]
      split <;> rfl
    rw [List.foldl_cons, step, ih, addAll_cons]

theorem contains_add [EquivBEq α] (n : Numbering α) (a b : α) :
    (n.add a).contains b = (n.contains b || a == b) := by
  by_cases present : n.contains a = true
  · simp only [add, present, if_true]
    cases same : a == b with
    | false => simp
    | true =>
      obtain ⟨c, member, found⟩ := List.any_eq_true.1 present
      have there : n.contains b = true := List.any_eq_true.2 ⟨c, member, BEq.trans found same⟩
      simp [there]
  · have absent : n.contains a = false := by simpa using present
    simp only [add, absent, Bool.false_eq_true, if_false]
    simp [contains]

theorem contains_addAll [EquivBEq α] (n : Numbering α) (as : List α) (b : α) :
    (n.addAll as).contains b = (n.contains b || as.any (· == b)) := by
  induction as generalizing n with
  | nil => simp [addAll]
  | cons a rest ih => rw [addAll_cons, ih, contains_add, List.any_cons, Bool.or_assoc]

theorem exists_indexOf? [EquivBEq α] {n : Numbering α} {as : List α} {a : α}
    (all : n.values = as.eraseDups) (member : a ∈ as) : ∃ i, n.indexOf? a = some i := by
  have same : n = (empty : Numbering α).addAll as := by
    cases n
    rw [← values_ofList] at all
    exact congrArg Numbering.mk all
  have there : n.contains a = true := by
    rw [same, contains_addAll]
    simp only [Bool.or_eq_true, List.any_eq_true]
    exact .inr ⟨a, member, BEq.rfl⟩
  apply Option.isSome_iff_exists.1
  rw [indexOf?, List.findIdx?_isSome]
  exact there

theorem indexOf?_lt {n : Numbering α} {a : α} {i : Nat} (h : n.indexOf? a = some i) :
    i < n.values.length := (List.findIdx?_eq_some_iff_getElem.1 h).1

theorem getElem?_of_indexOf? [LawfulBEq α] {n : Numbering α} {a : α} {i : Nat}
    (h : n.indexOf? a = some i) : n.values[i]? = some a := by
  obtain ⟨below, same, -⟩ := List.findIdx?_eq_some_iff_getElem.1 h
  rw [List.getElem?_eq_getElem below, beq_iff_eq.1 same]

theorem indexOf?_eq_idxOf {n : Numbering α} {a : α} {i : Nat} (h : n.indexOf? a = some i) :
    i = n.values.idxOf a := by
  obtain ⟨below, same, before⟩ := List.findIdx?_eq_some_iff_getElem.1 h
  exact ((List.findIdx_eq below).2 ⟨same, fun j hj => by simpa using before j hj⟩).symm

def Distinct (n : Numbering α) : Prop := n.values.Pairwise fun a b => (a == b) = false

theorem distinct_add {n : Numbering α} (h : n.Distinct) (a : α) : (n.add a).Distinct := by
  by_cases present : n.contains a = true
  · rwa [add, if_pos present]
  · have absent : ∀ b ∈ n.values, (b == a) = false := by simpa [contains] using present
    rw [add, if_neg present]
    refine List.pairwise_append.2 ⟨h, List.pairwise_singleton _ a, fun b there c new => ?_⟩
    rw [List.mem_singleton.1 new]
    exact absent b there

theorem distinct_addAll {n : Numbering α} (h : n.Distinct) (as : List α) :
    (n.addAll as).Distinct := by
  induction as generalizing n with
  | nil => exact h
  | cons a rest ih => exact ih (distinct_add h a)

theorem distinct_eraseDups [EquivBEq α] (as : List α) : (Numbering.mk as.eraseDups).Distinct := by
  rw [← values_ofList]
  exact distinct_addAll .nil as

theorem nodup_eraseDups [LawfulBEq α] (as : List α) : as.eraseDups.Nodup :=
  (distinct_eraseDups as).imp fun apart => by simpa using apart

theorem Distinct.indexOf?_eq_some_iff [EquivBEq α] {n : Numbering α} (h : n.Distinct) {a : α}
    {i : Nat} : n.indexOf? a = some i ↔ ∃ b, n.values[i]? = some b ∧ (b == a) = true := by
  rw [indexOf?, List.findIdx?_eq_some_iff_getElem]
  constructor
  · rintro ⟨below, same, -⟩
    exact ⟨_, List.getElem?_eq_getElem below, same⟩
  · rintro ⟨b, place, same⟩
    obtain ⟨below, rfl⟩ := List.getElem?_eq_some_iff.1 place
    refine ⟨below, same, fun j earlier again => ?_⟩
    have apart := List.pairwise_iff_getElem.1 h j i (Nat.lt_trans earlier below) below earlier
    rw [BEq.trans again (BEq.symm same)] at apart
    cases apart

variable {β γ : Type} [BEq β] {p : γ → α} {q : γ → β} {all : List γ}

theorem contains_alike (alike : ∀ x ∈ all, ∀ y ∈ all, (p x == p y) = (q x == q y)) {ys : List γ}
    (listed : ∀ y ∈ ys, y ∈ all) {x : γ} (member : x ∈ all) :
    (Numbering.mk (ys.map p)).contains (p x) = (Numbering.mk (ys.map q)).contains (q x) := by
  have same : ∀ y ∈ ys, (p y == p x) = (q y == q x) := fun y hy => alike y (listed y hy) x member
  rw [Bool.eq_iff_iff]
  simp only [contains, List.any_map, List.any_eq_true, Function.comp_apply]
  exact exists_congr fun y => and_congr_right fun hy => by rw [same y hy]

theorem addAll_alike (alike : ∀ x ∈ all, ∀ y ∈ all, (p x == p y) = (q x == q y)) {xs ys : List γ}
    (added : ∀ x ∈ xs, x ∈ all) (listed : ∀ y ∈ ys, y ∈ all) :
    ∃ zs : List γ, (∀ z ∈ zs, z ∈ all) ∧
      ((Numbering.mk (ys.map p)).addAll (xs.map p)).values = zs.map p ∧
      ((Numbering.mk (ys.map q)).addAll (xs.map q)).values = zs.map q := by
  induction xs generalizing ys with
  | nil => exact ⟨ys, listed, rfl, rfl⟩
  | cons x rest ih =>
    obtain ⟨now, later⟩ := List.forall_mem_cons.1 added
    have same := contains_alike alike listed now
    simp only [List.map_cons, addAll_cons]
    by_cases present : (Numbering.mk (ys.map p)).contains (p x) = true
    · simp only [add, ← same, present, if_true]
      exact ih later listed
    · simp only [add, ← same, present, Bool.false_eq_true, if_false]
      have longer : ∀ y ∈ ys ++ [x], y ∈ all := by
        intro y hy
        rcases List.mem_append.1 hy with old | new
        · exact listed y old
        · exact List.mem_singleton.1 new ▸ now
      simpa using ih later longer

theorem eraseDups_alike [EquivBEq α] [EquivBEq β]
    (alike : ∀ x ∈ all, ∀ y ∈ all, (p x == p y) = (q x == q y)) :
    ∃ zs : List γ, (∀ z ∈ zs, z ∈ all) ∧ (all.map p).eraseDups = zs.map p ∧
      (all.map q).eraseDups = zs.map q := by
  have none : ∀ y ∈ ([] : List γ), y ∈ all := by simp
  simp only [← values_ofList]
  exact addAll_alike alike (fun _ h => h) none

theorem mem_of_mem_eraseDups [EquivBEq α] {as : List α} {a : α} (h : a ∈ as.eraseDups) :
    a ∈ as := by
  have alike : ∀ x ∈ as, ∀ y ∈ as, (id x == id y) = (id x == id y) := fun _ _ _ _ => rfl
  obtain ⟨firsts, listed, same, -⟩ := eraseDups_alike alike
  rw [List.map_id, List.map_id] at same
  exact listed a (same ▸ h)

/-- Leaving out values after repeats or before makes no difference, if values that count as the same
are kept or left out together. -/
theorem filter_eraseDups {keep : α → Bool} {as : List α}
    (alike : ∀ a ∈ as, ∀ b ∈ as, (a == b) = true → keep a = keep b) :
    as.eraseDups.filter keep = (as.filter keep).eraseDups := by
  induction hlength : as.length using Nat.strongRecOn generalizing as with
  | _ length ih =>
  cases as with
  | nil => rfl
  | cons a rest =>
    have shorter : (rest.filter fun b => !b == a).length < length := by
      rw [← hlength, List.length_cons]
      exact Nat.lt_succ_of_le (List.length_filter_le _ _)
    have others := @ih _ shorter (rest.filter fun b => !b == a) (fun x hx y hy =>
      alike x (List.mem_cons_of_mem a (List.mem_filter.1 hx).1) y
        (List.mem_cons_of_mem a (List.mem_filter.1 hy).1)) rfl
    rw [List.eraseDups_cons, List.filter_cons, List.filter_cons, others]
    by_cases kept : keep a = true
    · rw [if_pos kept, if_pos kept, List.eraseDups_cons, List.filter_filter, List.filter_filter]
      simp only [Bool.and_comm]
    · -- what counts as `a` is left out with it
      have absent : (rest.filter fun b => !b == a).filter keep = rest.filter keep := by
        rw [List.filter_filter]
        refine List.filter_congr fun b member => ?_
        cases same : b == a with
        | false => rw [Bool.not_false, Bool.and_true]
        | true =>
          rw [alike b (List.mem_cons_of_mem a member) a List.mem_cons_self same,
            Bool.eq_false_iff.2 kept, Bool.false_and]
      rw [if_neg kept, if_neg kept, absent]

theorem idxOf_alike [EquivBEq α] [EquivBEq β]
    (alike : ∀ x ∈ all, ∀ y ∈ all, (p x == p y) = (q x == q y)) {x : γ} (member : x ∈ all) :
    (all.map q).eraseDups.idxOf (q x) = (all.map p).eraseDups.idxOf (p x) := by
  obtain ⟨zs, listed, first, second⟩ := eraseDups_alike alike
  have same : ∀ z ∈ zs, (p z == p x) = (q z == q x) := fun z hz => alike z (listed z hz) x member
  rw [first, second]
  clear first second listed
  induction zs with
  | nil => rfl
  | cons z rest ih =>
    obtain ⟨now, later⟩ := List.forall_mem_cons.1 same
    simp only [List.map_cons, List.idxOf_cons, now, ih later]

end LiteModel.Numbering
