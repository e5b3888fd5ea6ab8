import LiteModel.Export.Error
import LiteModel.Proofs.Numbering

/-! What a table of numbers answers. The number of a value is its place among the distinct values in
the order of their first appearance, as a word of 32 bits: the place itself as long as there are no
more values than words. -/
namespace LiteModel.Numbering

variable {α : Type} [BEq α]

theorem contains_addAll_empty [EquivBEq α] (as : List α) (a : α) :
    (empty.addAll as).contains a = as.contains a := by
  rw [contains_addAll, List.contains_eq_any_beq]
  simp only [BEq.comm (b := a)]
  rfl

theorem indexOf?_addAll_empty [EquivBEq α] (as : List α) (a : α) :
    (empty.addAll as).indexOf? a = if as.contains a then some (as.eraseDups.idxOf a) else none := by
  rw [← contains_addAll_empty, ← isSome_indexOf?]
  cases found : (empty.addAll as).indexOf? a with
  | none => rfl
  | some i => rw [indexOf?_eq_idxOf found, values_ofList]; rfl

namespace Table

variable {t : Table α}

theorem indexOf?_eq (t : Table α) (a : α) :
    t.indexOf? a = (t.toNumbering.indexOf? a).map UInt32.ofNat := t.agrees a

theorem indexOf?_of_place {a : α} {i : Nat} (h : t.toNumbering.indexOf? a = some i) :
    t.indexOf? a = some (UInt32.ofNat i) := by
  rw [indexOf?_eq, h, Option.map_some]

theorem indexOf_of_place {render : α → String} {a : α} {i : Nat}
    (h : t.toNumbering.indexOf? a = some i) : t.indexOf render a = .ok (UInt32.ofNat i) := by
  rw [indexOf, indexOf?_of_place h]

theorem indexOf_ok_iff {render : α → String} {a : α} {i : UInt32} :
    t.indexOf render a = .ok i ↔ t.indexOf? a = some i := by
  unfold indexOf
  cases t.indexOf? a <;> simp

theorem exists_place_of_indexOf {render : α → String} {a : α} {i : UInt32}
    (h : t.indexOf render a = .ok i) :
    ∃ n, t.toNumbering.indexOf? a = some n ∧ i = UInt32.ofNat n := by
  rw [indexOf_ok_iff, indexOf?_eq, Option.map_eq_some_iff] at h
  obtain ⟨n, place, same⟩ := h
  exact ⟨n, place, same.symm⟩

theorem valueAt_ok_iff {a : α} {i : UInt32} :
    t.valueAt i = .ok a ↔ t.values[i.toNat]? = some a := by
  unfold valueAt valueAt?
  cases t.values[i.toNat]? <;> simp

theorem lookup_congr [EquivBEq α] {a b : α} (same : (a == b) = true)
    (numbers : List (α × UInt32)) : numbers.lookup a = numbers.lookup b := by
  induction numbers with
  | nil => rfl
  | cons entry rest ih => rw [lookup_cons, lookup_cons, BEq.congr_left same, ih]

@[simp] theorem toNumbering_add [EquivBEq α] (t : Table α) (a : α) :
    (t.add a).1.toNumbering = t.toNumbering.add a := by
  unfold add
  split
  next i known =>
    have present : t.toNumbering.contains a = true := by rw [← contains_eq, contains, known]; rfl
    rw [Numbering.add, if_pos present]
  next new => exact (add_of_lookup new).symm

theorem indexOf?_add_self [EquivBEq α] (t : Table α) (a : α) :
    (t.add a).1.indexOf? a = some (t.add a).2 := by
  unfold add
  split
  next known => exact known
  next => rw [indexOf?, List.lookup_cons, BEq.rfl]

theorem addAll_append [EquivBEq α] (t : Table α) (as bs : List α) :
    t.addAll (as ++ bs) = (t.addAll as).addAll bs := List.foldl_append

@[simp] theorem toNumbering_addAll [EquivBEq α] (t : Table α) (as : List α) :
    (t.addAll as).toNumbering = t.toNumbering.addAll as := by
  induction as generalizing t with
  | nil => rfl
  | cons a rest ih => rw [addAll_cons, ← toNumbering_add, ← ih]; rfl

theorem fst_addEach [EquivBEq α] (t : Table α) (as : List α) :
    (t.addEach as).1 = t.addAll as := by
  induction as generalizing t with
  | nil => rfl
  | cons a rest ih => exact ih (t.add a).1

theorem values_addAll_empty [EquivBEq α] (as : List α) :
    ((empty : Table α).addAll as).values = as.eraseDups := by
  rw [toNumbering_addAll]
  exact values_ofList as

/-- What a table answered is what a later one answers. -/
structure Keeps (t later : Table α) : Prop where
  numbers : ∀ (render : α → String) (a : α) (i : UInt32),
    t.indexOf render a = .ok i → later.indexOf render a = .ok i
  values : ∀ (i : UInt32) (a : α), t.valueAt i = .ok a → later.valueAt i = .ok a

theorem Keeps.trans {u v : Table α} (first : t.Keeps u) (second : u.Keeps v) : t.Keeps v :=
  ⟨fun render a i h => second.numbers render a i (first.numbers render a i h),
    fun i a h => second.values i a (first.values i a h)⟩

theorem keeps_add [EquivBEq α] (t : Table α) (a : α) : t.Keeps (t.add a).1 := by
  unfold Table.add
  split
  next => exact ⟨fun _ _ _ h => h, fun _ _ h => h⟩
  next new =>
    constructor
    · intro render b i given
      rw [indexOf_ok_iff, indexOf?] at given ⊢
      have other : ¬(b == a) = true := by
        intro same
        rw [lookup_congr same, new] at given
        cases given
      rw [lookup_cons, if_neg other, given]
    · intro i b given
      rw [valueAt_ok_iff] at given ⊢
      have inside := (List.getElem?_eq_some_iff.1 given).1
      rw [List.getElem?_append_left inside, given]

theorem keeps_addEach [EquivBEq α] (t : Table α) (as : List α) : t.Keeps (t.addEach as).1 := by
  induction as generalizing t with
  | nil => exact ⟨fun _ _ _ h => h, fun _ _ h => h⟩
  | cons a rest ih => exact (keeps_add t a).trans (ih (t.add a).1)

/-- What a table answers after these values were added to it. -/
structure Answers (as : List α) (t : Table α) : Prop where
  values : t.values = as.eraseDups
  contains_eq : ∀ a, t.contains a = as.contains a
  indexOf_eq : ∀ (render : α → String) (a : α), (t.indexOf render a).map UInt32.toNat =
    if as.contains a then .ok (as.eraseDups.idxOf a) else .error (.keyNotFound (render a))
  valueAt_eq : ∀ i : UInt32, t.valueAt i =
    if h : i.toNat < as.eraseDups.length then .ok as.eraseDups[i.toNat]
    else .error (.indexOutOfRange i.toNat as.eraseDups.length)
  inverse : ∀ (render : α → String) (a : α) (i : UInt32),
    t.indexOf render a = .ok i ↔ ∃ b, t.valueAt i = .ok b ∧ (b == a) = true

theorem toNat_indexOf? (few : t.values.length ≤ UInt32.size) (a : α) :
    (t.indexOf? a).map UInt32.toNat = t.toNumbering.indexOf? a := by
  rw [indexOf?_eq, Option.map_map]
  cases place : t.toNumbering.indexOf? a with
  | none => rfl
  | some n =>
    have below := Nat.lt_of_lt_of_le (indexOf?_lt place) few
    rw [Option.map_some, Function.comp_apply, UInt32.toNat_ofNat_of_lt' below]

theorem answers_addAll [EquivBEq α] {as : List α} (few : as.eraseDups.length ≤ UInt32.size) :
    ((empty : Table α).addAll as).Answers as := by
  have values := values_addAll_empty as
  have places : ((empty : Table α).addAll as).toNumbering = Numbering.empty.addAll as :=
    toNumbering_addAll _ as
  have exact := toNat_indexOf? (t := (empty : Table α).addAll as) (values ▸ few)
  refine ⟨values, fun a => ?_, fun render a => ?_, fun i => ?_, fun render a i => ?_⟩
  · rw [contains_eq, places, contains_addAll_empty]
  · have number := exact a
    rw [places, indexOf?_addAll_empty] at number
    rw [indexOf]
    split at number
    next present =>
      obtain ⟨i, found, same⟩ := Option.map_eq_some_iff.1 number
      rw [found, if_pos present, ← same]
      rfl
    next absent => rw [Option.map_eq_none_iff.1 number, if_neg absent]; rfl
  · rw [valueAt, valueAt?, Numbering.size, values]
    split
    next found =>
      obtain ⟨below, rfl⟩ := List.getElem?_eq_some_iff.1 found
      rw [dif_pos below]
    next none => rw [dif_neg (Nat.not_lt.2 (List.getElem?_eq_none_iff.1 none))]
  · have distinct : (Numbering.empty.addAll as).Distinct := distinct_addAll .nil as
    have number : ((empty : Table α).addAll as).indexOf? a = some i ↔
        (Numbering.empty.addAll as).indexOf? a = some i.toNat := by
      rw [← places, ← exact a, Option.map_eq_some_iff]
      simp only [UInt32.toNat_inj, exists_eq_right]
    rw [indexOf_ok_iff, number, distinct.indexOf?_eq_some_iff, ← places]
    simp only [valueAt_ok_iff]

theorem snd_addEach [EquivBEq α] (t : Table α) (as : List α) :
    (t.addEach as).2.map some = as.map (t.addAll as).indexOf? := by
  induction as generalizing t with
  | nil => rfl
  | cons a rest ih =>
    have stays := (keeps_addEach (t.add a).1 rest).numbers (fun _ => "") a (t.add a).2
    rw [indexOf_ok_iff, indexOf_ok_iff, fst_addEach] at stays
    have last := stays (indexOf?_add_self t a)
    rw [addEach, List.map_cons, List.map_cons, ih]
    exact congrArg (· :: _) last.symm

/-- Values that are added one after the other are numbered in the order in which each first
appears. Numbers and values answer to each other, and keep to it whatever is added later. -/
theorem addEach_answers [EquivBEq α] {as : List α} (few : as.eraseDups.length < UInt32.size) :
    ((empty : Table α).addEach as).1.Answers as ∧
      ((empty : Table α).addEach as).2.map UInt32.toNat = as.map as.eraseDups.idxOf ∧
      ∀ more, ((empty : Table α).addEach as).1.Keeps
        (((empty : Table α).addEach as).1.addEach more).1 := by
  have answers : ((empty : Table α).addAll as).Answers as := answers_addAll (Nat.le_of_lt few)
  have each : ∀ a ∈ as, (((empty : Table α).addAll as).indexOf? a).map UInt32.toNat =
      some (as.eraseDups.idxOf a) := by
    intro a member
    have present : as.contains a = true := List.contains_iff_exists_mem_beq.2 ⟨a, member, BEq.rfl⟩
    rw [toNat_indexOf? (answers.values ▸ Nat.le_of_lt few), toNumbering_addAll]
    exact (indexOf?_addAll_empty as a).trans (if_pos present)
  have given : (((empty : Table α).addEach as).2.map UInt32.toNat).map some =
      (as.map as.eraseDups.idxOf).map some := by
    have numbers := congrArg (List.map (Option.map UInt32.toNat)) (snd_addEach empty as)
    rw [List.map_map, List.map_map] at numbers
    rw [List.map_map, List.map_map]
    exact numbers.trans (List.map_congr_left each)
  rw [fst_addEach]
  exact ⟨answers, (List.map_inj_right fun _ _ => Option.some.inj).1 given,
    fun more => keeps_addEach _ more⟩

def revisited : List Storage :=
  [.ofBytes ⟨4⟩ [1], .ofBytes ⟨9⟩ [1], .ofBytes ⟨4⟩ [2], .ofBytes ⟨0⟩ [],
    .zeros ⟨9⟩ 1]

theorem addEach_answers_revisited : revisited.eraseDups.length < UInt32.size ∧
    ((empty : Table Storage).addEach revisited).1.Answers revisited ∧
    ((empty : Table Storage).addEach revisited).2.map UInt32.toNat = [0, 1, 0, 2, 1] ∧
    ∀ more, ((empty : Table Storage).addEach revisited).1.Keeps
      (((empty : Table Storage).addEach revisited).1.addEach more).1 := by
  have few : revisited.eraseDups.length < UInt32.size := by decide
  obtain ⟨answers, given, kept⟩ := addEach_answers few
  have places : revisited.map revisited.eraseDups.idxOf = [0, 1, 0, 2, 1] := by decide
  exact ⟨few, answers, given.trans places, kept⟩

end Table

end LiteModel.Numbering
