import Mathlib.Data.List.Forall2

/-! Going through a list with a step that may fail: the whole succeeds when every step does, and its
result then pairs off with the list. At the end are entries that are looked up by a key. -/
namespace LiteModel.Sequencing

open List

variable {α β ε : Type}

theorem bind_ok_iff {x : Except ε α} {f : α → Except ε β} {b : β} :
    x >>= f = .ok b ↔ ∃ a, x = .ok a ∧ f a = .ok b := by
  cases x <;> simp [bind, Except.bind]

theorem andThen_ok_iff {x : Except ε Unit} {f : Unit → Except ε β} {b : β} :
    x >>= f = .ok b ↔ x = .ok () ∧ f () = .ok b := by
  rw [bind_ok_iff]
  exact ⟨fun ⟨(), passed, h⟩ => ⟨passed, h⟩, fun h => ⟨(), h⟩⟩

theorem refuse_ok_iff {c : Prop} [Decidable c] {e : ε} {f : β → Except ε α} {x : Except ε α}
    {a : α} : (if c then throw e >>= f else x) = .ok a ↔ ¬c ∧ x = .ok a := by
  by_cases refused : c <;> simp [refused, bind, Except.bind, throw, throwThe, MonadExceptOf.throw]

theorem mapError_ok_iff {δ : Type} {x : Except ε α} {f : ε → δ} {a : α} :
    x.mapError f = .ok a ↔ x = .ok a := by
  cases x <;> simp [Except.mapError]

theorem bind_error_iff {x : Except ε α} {f : α → Except ε β} {e : ε} :
    x >>= f = .error e ↔ x = .error e ∨ ∃ a, x = .ok a ∧ f a = .error e := by
  cases x <;> simp [bind, Except.bind]

theorem mapError_error_iff {δ : Type} {x : Except ε α} {f : ε → δ} {d : δ} :
    x.mapError f = .error d ↔ ∃ e, x = .error e ∧ f e = d := by
  cases x <;> simp [Except.mapError]

theorem forM_ok_iff {f : α → Except ε Unit} {xs : List α} :
    xs.forM f = .ok () ↔ ∀ x ∈ xs, f x = .ok () := by
  induction xs with
  | nil => simp [pure, Except.pure]
  | cons x rest ih =>
    rw [List.forM_eq_forM, List.forM_cons, bind_ok_iff, forall_mem_cons, ← ih]
    exact ⟨fun ⟨_, first, others⟩ => ⟨first, others⟩, fun ⟨first, others⟩ => ⟨(), first, others⟩⟩

theorem mapM_some_iff {f : α → Option β} {xs : List α} {ys : List β} :
    xs.mapM f = some ys ↔ Forall₂ (fun x y => f x = some y) xs ys := by
  induction xs generalizing ys with
  | nil => simp [eq_comm]
  | cons x rest ih =>
    cases ys with
    | nil => cases hx : f x <;> cases hr : rest.mapM f <;> simp [hx, hr]
    | cons y ys => simp [forall₂_cons, ← ih, Option.bind_eq_some_iff]

theorem mapM_ok_iff {f : α → Except ε β} {xs : List α} {ys : List β} :
    xs.mapM f = .ok ys ↔ Forall₂ (fun x y => f x = .ok y) xs ys := by
  induction xs generalizing ys with
  | nil => simp [pure, Except.pure, eq_comm]
  | cons x rest ih =>
    rw [mapM_cons]
    cases ys with
    | nil =>
      cases hx : f x <;> cases hr : rest.mapM f <;> simp [bind, Except.bind, pure, Except.pure]
    | cons y ys =>
      rw [forall₂_cons, ← ih]
      cases hx : f x <;> cases hr : rest.mapM f <;> simp [bind, Except.bind, pure, Except.pure]

theorem forall₂_split {R : α → β → Prop} {xs : List α} {before after : List β} {y : β}
    (h : Forall₂ R xs (before ++ y :: after)) : ∃ front x back, xs = front ++ x :: back ∧
      Forall₂ R front before ∧ R x y := by
  induction before generalizing xs with
  | nil =>
    obtain ⟨x, back, here, -, rfl⟩ := forall₂_cons_right_iff.1 h
    exact ⟨[], x, back, rfl, .nil, here⟩
  | cons first rest ih =>
    obtain ⟨w, others, now, later, rfl⟩ := forall₂_cons_right_iff.1 h
    obtain ⟨front, x, back, rfl, pairs, here⟩ := ih later
    exact ⟨w :: front, x, back, rfl, .cons now pairs, here⟩

theorem exists_of_mem_forall₂ {R : α → β → Prop} {xs : List α} {ys : List β} (h : Forall₂ R xs ys)
    {y : β} (member : y ∈ ys) : ∃ x ∈ xs, R x y := by
  obtain ⟨before, after, rfl⟩ := append_of_mem member
  obtain ⟨front, x, back, rfl, -, here⟩ := forall₂_split h
  exact ⟨x, by simp, here⟩

theorem exists_of_mem_mapM {f : α → Except ε β} {xs : List α} {ys : List β}
    (h : xs.mapM f = .ok ys) : ∀ y ∈ ys, ∃ x ∈ xs, f x = .ok y :=
  fun _ => exists_of_mem_forall₂ (mapM_ok_iff.1 h)

/-- Where steps fail there is a first one to fail: those before it succeeded. -/
theorem mapM_error_iff {f : α → Except ε β} {xs : List α} {e : ε} :
    xs.mapM f = .error e ↔ ∃ before x after, xs = before ++ x :: after ∧
      (∀ y ∈ before, ∃ b, f y = .ok b) ∧ f x = .error e := by
  have cons : ∀ x rest, (x :: rest).mapM f = .error e ↔
      f x = .error e ∨ ∃ b, f x = .ok b ∧ rest.mapM f = .error e := by
    intro x rest
    rw [mapM_cons]
    cases f x <;> cases rest.mapM f <;> simp [bind, Except.bind, pure, Except.pure]
  constructor
  · intro h
    induction xs with
    | nil => cases h
    | cons x rest ih =>
      rcases (cons x rest).1 h with first | ⟨b, first, others⟩
      · exact ⟨[], x, rest, rfl, by simp, first⟩
      · obtain ⟨before, y, after, rfl, passed, failed⟩ := ih others
        exact ⟨x :: before, y, after, rfl, forall_mem_cons.2 ⟨⟨b, first⟩, passed⟩, failed⟩
  · rintro ⟨before, x, after, rfl, passed, failed⟩
    induction before with
    | nil => exact (cons x after).2 (.inl failed)
    | cons y before ih =>
      obtain ⟨⟨b, first⟩, others⟩ := forall_mem_cons.1 passed
      exact (cons y _).2 (.inr ⟨b, first, ih others⟩)

theorem exists_of_mapM_error {f : α → Except ε β} {xs : List α} {e : ε}
    (h : xs.mapM f = .error e) : ∃ x ∈ xs, f x = .error e := by
  obtain ⟨before, x, after, rfl, -, failed⟩ := mapM_error_iff.1 h
  exact ⟨x, by simp, failed⟩

theorem foldlM_error_iff {f : β → α → Except ε β} {xs : List α} {b : β} {e : ε} :
    xs.foldlM f b = .error e ↔ ∃ before x after c, xs = before ++ x :: after ∧
      before.foldlM f b = .ok c ∧ f c x = .error e := by
  constructor
  · intro h
    induction xs generalizing b with
    | nil => cases h
    | cons x rest ih =>
      rw [foldlM_cons, bind_error_iff] at h
      rcases h with first | ⟨c, first, others⟩
      · exact ⟨[], x, rest, b, rfl, rfl, first⟩
      · obtain ⟨before, y, after, d, rfl, passed, failed⟩ := ih others
        refine ⟨x :: before, y, after, d, rfl, ?_, failed⟩
        rw [foldlM_cons, first]
        exact passed
  · rintro ⟨before, x, after, c, rfl, passed, failed⟩
    rw [foldlM_append, passed]
    dsimp only [bind, Except.bind]
    rw [foldlM_cons, failed]
    rfl

theorem exists_mapM_ok_iff {f : α → Except ε β} {xs : List α} :
    (∃ ys, xs.mapM f = .ok ys) ↔ ∀ x ∈ xs, ∃ y, f x = .ok y := by
  constructor
  · rintro ⟨ys, h⟩
    have pairs := mapM_ok_iff.1 h
    clear h
    induction pairs with
    | nil => simp
    | cons first _ ih => exact forall_mem_cons.2 ⟨⟨_, first⟩, ih⟩
  · intro each
    cases h : xs.mapM f with
    | ok ys => exact ⟨ys, rfl⟩
    | error e =>
      obtain ⟨x, member, failed⟩ := exists_of_mapM_error h
      obtain ⟨y, passed⟩ := each x member
      cases failed.symm.trans passed

theorem forall₂_of_mapM {f : α → Except ε β} {xs : List α} {ys : List β} {R : α → β → Prop}
    (h : xs.mapM f = .ok ys) (each : ∀ x ∈ xs, ∀ y, f x = .ok y → R x y) : Forall₂ R xs ys := by
  have pairs := mapM_ok_iff.1 h
  clear h
  induction pairs with
  | nil => exact .nil
  | cons first _ ih =>
    obtain ⟨now, later⟩ := forall_mem_cons.1 each
    exact .cons (now _ first) (ih later)

theorem forall₂_getElem? {R : α → β → Prop} {xs : List α} {ys : List β} (h : Forall₂ R xs ys)
    {k : Nat} {x : α} (place : xs[k]? = some x) : ∃ y, ys[k]? = some y ∧ R x y := by
  induction h generalizing k with
  | nil => cases place
  | @cons _ y _ _ first _ ih =>
    cases k with
    | zero =>
      cases place
      exact ⟨y, rfl, first⟩
    | succ k => exact ih place

theorem forall₂_comp {γ : Type} {R : α → β → Prop} {S : β → γ → Prop} {xs : List α} {ys : List β}
    {zs : List γ} (h : Forall₂ R xs ys) (k : Forall₂ S ys zs) :
    Forall₂ (fun x z => ∃ y, R x y ∧ S y z) xs zs := by
  induction h generalizing zs with
  | nil =>
    cases k
    exact .nil
  | cons first _ ih =>
    cases k with
    | cons second others => exact .cons ⟨_, first, second⟩ (ih others)

theorem map_eq_of_forall₂ {γ : Type} {xs : List α} {ys : List β} {p : β → γ} {q : α → γ}
    (pairs : Forall₂ (fun x y => p y = q x) xs ys) : ys.map p = xs.map q := by
  induction pairs with
  | nil => rfl
  | cons first _ ih => rw [map_cons, map_cons, first, ih]

theorem map_eq_of_mapM {γ : Type} {f : α → Except ε β} {xs : List α} {ys : List β} {p : β → γ}
    {q : α → γ} (h : xs.mapM f = .ok ys) (each : ∀ x y, f x = .ok y → p y = q x) :
    ys.map p = xs.map q :=
  map_eq_of_forall₂ (forall₂_of_mapM h fun x _ => each x)

theorem exists_mapM_some {f : α → Option β} {xs : List α} (h : ∀ x ∈ xs, ∃ y, f x = some y) :
    ∃ ys, xs.mapM f = some ys := by
  induction xs with
  | nil => exact ⟨[], rfl⟩
  | cons x rest ih =>
    obtain ⟨y, hy⟩ := h x mem_cons_self
    obtain ⟨ys, hys⟩ := ih fun z hz => h z (mem_cons_of_mem x hz)
    exact ⟨y :: ys, by simp [hy, hys]⟩

theorem mapM_congr₂ {γ : Type} {f : α → Except ε β} {k : γ → Except ε β} {xs : List α}
    {ys : List γ} (pairs : Forall₂ (fun x y => f x = k y) xs ys) : xs.mapM f = ys.mapM k := by
  induction pairs with
  | nil => rfl
  | cons first _ ih => rw [mapM_cons, mapM_cons, first, ih]

theorem mapM_congr {f k : α → Except ε β} {xs : List α} (each : ∀ x ∈ xs, f x = k x) :
    xs.mapM f = xs.mapM k :=
  mapM_congr₂ (forall₂_same.2 each)

theorem mapM_congr_map {γ : Type} {f : α → Except ε γ} {k : α → Except ε β} {s : β → γ}
    {xs : List α} (each : ∀ x ∈ xs, f x = (k x).map s) :
    xs.mapM f = (xs.mapM k).map (List.map s) := by
  induction xs with
  | nil => rfl
  | cons x rest ih =>
    obtain ⟨first, others⟩ := forall_mem_cons.1 each
    rw [mapM_cons, mapM_cons, first, ih others]
    cases k x with
    | error e => rfl
    | ok y => cases rest.mapM k <;> rfl

theorem mapM_map {γ δ : Type} {f : α → Except ε β} {k : γ → Except ε δ} {r : γ → α} {s : δ → β}
    (each : ∀ x, f (r x) = (k x).map s) (xs : List γ) :
    (xs.map r).mapM f = (xs.mapM k).map (List.map s) := by
  induction xs with
  | nil => rfl
  | cons x rest ih =>
    rw [map_cons, mapM_cons, mapM_cons, each, ih]
    cases k x with
    | error e => rfl
    | ok y => cases rest.mapM k <;> rfl

theorem findSome?_map_congr {γ : Type} {f : α → Option β} {k : γ → Option β} {r : γ → α}
    {xs : List γ} (each : ∀ x ∈ xs, f (r x) = k x) : (xs.map r).findSome? f = xs.findSome? k := by
  induction xs with
  | nil => rfl
  | cons x rest ih =>
    obtain ⟨first, others⟩ := forall_mem_cons.1 each
    rw [map_cons, findSome?_cons, findSome?_cons, first, ih others]

theorem filterMap_eq_map_filter [Inhabited β] (f : α → Option β) (xs : List α) :
    xs.filterMap f = (xs.filter fun x => (f x).isSome).map fun x => (f x).getD default := by
  induction xs with
  | nil => rfl
  | cons x rest ih => cases hx : f x <;> simp [hx, ih]

theorem exists_foldlM_ok {f : β → α → Except ε β} {xs : List α}
    (each : ∀ b, ∀ x ∈ xs, ∃ c, f b x = .ok c) (b : β) : ∃ c, xs.foldlM f b = .ok c := by
  induction xs generalizing b with
  | nil => exact ⟨b, rfl⟩
  | cons x rest ih =>
    obtain ⟨now, later⟩ := forall_mem_cons.1 fun y hy b => each b y hy
    obtain ⟨c, first⟩ := now b
    obtain ⟨d, others⟩ := ih (fun b y hy => later y hy b) c
    exact ⟨d, by rw [foldlM_cons, first]; exact others⟩

/-- Steps that collect keys, each refusing one that is there already, collect distinct ones. -/
theorem foldlM_collect_ok_iff {κ : Type} {f : List κ → α → Except ε (List κ)} {key : α → κ}
    {fine : α → Prop}
    (step : ∀ seen x all, f seen x = .ok all ↔ key x ∉ seen ∧ fine x ∧ key x :: seen = all)
    {xs : List α} {seen all : List κ} :
    xs.foldlM f seen = .ok all ↔ (xs.map key).Nodup ∧ (∀ x ∈ xs, key x ∉ seen) ∧
      (∀ x ∈ xs, fine x) ∧ (xs.map key).reverse ++ seen = all := by
  induction xs generalizing seen with
  | nil => simp [pure, Except.pure]
  | cons x rest ih =>
    simp only [foldlM_cons, bind_ok_iff, step, ih, map_cons, nodup_cons, forall_mem_cons,
      reverse_cons, append_assoc, singleton_append]
    constructor
    · rintro ⟨_, ⟨fresh, now, rfl⟩, distinct, apart, later, rfl⟩
      refine ⟨⟨?_, distinct⟩, ⟨fresh, fun y hy before => apart y hy (mem_cons_of_mem _ before)⟩,
        ⟨now, later⟩, rfl⟩
      intro again
      obtain ⟨y, hy, same⟩ := mem_map.1 again
      exact apart y hy (same ▸ mem_cons_self)
    · rintro ⟨⟨alone, distinct⟩, ⟨fresh, apart⟩, ⟨now, later⟩, rfl⟩
      refine ⟨_, ⟨fresh, now, rfl⟩, distinct, fun y hy before => ?_, later, rfl⟩
      rcases mem_cons.1 before with same | before
      · exact alone (mem_map.2 ⟨y, hy, same⟩)
      · exact apart y hy before

def outcome (fault? : Option ε) (a : α) : Except ε α :=
  match fault? with
  | some e => .error e
  | none => .ok a

theorem outcome_ok_iff {x : Option ε} {a b : α} : outcome x a = .ok b ↔ x = none ∧ a = b := by
  cases x <;> simp [outcome]

theorem outcome_error_iff {x : Option ε} {a : α} {e : ε} :
    outcome x a = .error e ↔ x = some e := by
  cases x <;> simp [outcome]

theorem outcome_bind {x y : Option ε} {a : α} {k : α → Except ε β} {b : β}
    (next : k a = outcome y b) : outcome x a >>= k = outcome (x.or y) b := by
  cases x with
  | none => exact next
  | some e => rfl

theorem outcome_bind_ok {x : Option ε} {a : α} {k : α → Except ε β} {b : β} (next : k a = .ok b) :
    outcome x a >>= k = outcome x b := by
  have last := outcome_bind (x := x) (y := none) next
  rwa [Option.or_none] at last

/-- The first member with a fault is the one that counts. -/
theorem mapM_eq_outcome {f : α → Except ε β} {fault? : α → Option ε} {value : α → β} {xs : List α}
    (each : ∀ x ∈ xs, f x = outcome (fault? x) (value x)) :
    xs.mapM f = outcome (xs.findSome? fault?) (xs.map value) := by
  induction xs with
  | nil => rfl
  | cons x rest ih =>
    obtain ⟨first, others⟩ := forall_mem_cons.1 each
    rw [mapM_cons, first, ih others, findSome?_cons, map_cons]
    cases fault? x with
    | some e => rfl
    | none => cases rest.findSome? fault? <;> rfl

section Entries

variable {κ : Type} [BEq κ] [LawfulBEq κ] [DecidableEq κ] {l k : κ}

theorem lookup_cons_ite (p : κ × α) (rest : List (κ × α)) :
    (p :: rest).lookup k = if k = p.1 then some p.2 else rest.lookup k := by
  rw [lookup_cons]
  by_cases here : k = p.1
  · rw [if_pos here, beq_iff_eq.2 here]
  · rw [if_neg here, beq_eq_false_iff_ne.2 here]

theorem lookup_filter_ne (entries : List (κ × α)) :
    (entries.filter (·.1 != l)).lookup k = if k = l then none else entries.lookup k := by
  induction entries with
  | nil => simp
  | cons p rest ih =>
    by_cases taken : p.1 = l
    · rw [filter_cons_of_neg (by simp [taken]), ih, lookup_cons_ite, taken]
      split <;> rfl
    · rw [filter_cons_of_pos (by simp [taken]), lookup_cons_ite, lookup_cons_ite, ih]
      by_cases here : k = p.1
      · rw [if_pos here, if_pos here, if_neg (here ▸ taken)]
      · rw [if_neg here, if_neg here]

end Entries

end LiteModel.Sequencing
