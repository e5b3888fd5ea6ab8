import LiteModel.Files.Tree
import LiteModel.Proofs.Sequencing

/-! Trees with an entry put in or taken out. What is at a location is found again, the rest stays as
it was, and a path that leads to a place still leads there as long as no directory was changed: the
entries on the way are directories all of them. -/
namespace LiteModel.Files.Tree

open Sequencing

variable {s t : Tree} {l k : Location} {e : Entry}

theorem find?_eq_none_iff : t.find? l = none ↔ ∀ p ∈ t.entries, p.1 ≠ l := by
  simp only [find?, List.lookup_eq_none_iff, bne_iff_ne, ne_comm]

theorem find?_remove : (t.remove l).find? k = if k = l then none else t.find? k :=
  lookup_filter_ne t.entries

theorem find?_insert : (t.insert l e).find? k = if k = l then some e else t.find? k := by
  have rest : (t.remove l).entries.lookup k = if k = l then none else t.find? k := find?_remove
  rw [insert, find?, lookup_cons_ite, rest]
  split <;> rfl

@[simp] theorem find?_insert_self : (t.insert l e).find? l = some e := by
  rw [find?_insert, if_pos rfl]

@[simp] theorem remove_remove : (t.remove l).remove l = t.remove l := by
  simp [remove]

@[simp] theorem remove_insert : (t.insert l e).remove l = t.remove l := by
  rw [insert, remove, List.filter_cons_of_neg (by simp)]
  exact remove_remove

@[simp] theorem insert_insert {e' : Entry} : (t.insert l e).insert l e' = t.insert l e' := by
  rw [insert, remove_insert]
  rfl

theorem remove_of_find?_none (absent : t.find? l = none) : t.remove l = t := by
  have all : t.entries.filter (·.1 != l) = t.entries :=
    List.filter_eq_self.2 fun p member => by simpa using find?_eq_none_iff.1 absent p member
  rw [remove, all]

theorem mem_namesIn {directory : Location} {name : String}
    (member : (directory ++ [name], e) ∈ t.entries) : name ∈ t.namesIn directory :=
  List.mem_filterMap.2 ⟨_, member, by simp⟩

theorem create_ok {made : Tree} {e : Nat → Entry} (h : t.create l e = .ok made) :
    ∃ mode, made = t.insert l (e mode) := by
  unfold create at h
  split at h
  next mode _ =>
    obtain ⟨_, -, h⟩ := bind_ok_iff.1 h
    cases h
    exact ⟨mode, rfl⟩
  next => cases h
  next => cases h

def modeAt (t : Tree) (l : Location) : Nat := ((t.find? l).map Entry.mode).getD Mode.newFile

/-- The directories are the same, permission bits included. -/
def SameDirectories (s t : Tree) : Prop := ∀ l mode,
  s.find? l = some (.directory mode) ↔ t.find? l = some (.directory mode)

theorem SameDirectories.symm (h : s.SameDirectories t) : t.SameDirectories s :=
  fun l mode => (h l mode).symm

theorem sameDirectories_insert {bytes : List UInt8} {mode : Nat}
    (free : ∀ mode, t.find? l ≠ some (.directory mode)) :
    (t.insert l (.file bytes mode)).SameDirectories t := by
  intro k bits
  rw [find?_insert]
  by_cases here : k = l
  · subst here
    simp [free bits]
  · rw [if_neg here]

theorem enter_ok_iff {here : Location} {name : String} : t.enter here name = .ok l ↔
    ∃ mode, t.find? here = some (.directory mode) ∧
      (name.isEmpty = true ∨ Mode.demand mode .search = .ok ()) ∧ Path.checkName name = .ok () ∧
      (if Path.isStill name then here else if name = ".." then here.dropLast else here ++ [name]) =
        l := by
  unfold enter
  split
  next absent => simp [absent, throw, throwThe, MonadExceptOf.throw]
  next found => simp [found, throw, throwThe, MonadExceptOf.throw]
  next mode found =>
    simp only [found, Option.some.injEq, Entry.directory.injEq, exists_eq_left']
    by_cases empty : name.isEmpty = true
    · simp [empty, andThen_ok_iff, pure, Except.pure]
    · simp [empty, andThen_ok_iff, pure, Except.pure]

theorem walk_concat (t : Tree) (names : List String) (name : String) :
    t.walk (names ++ [name]) = t.walk names >>= fun here => t.enter here name := by
  simp [walk]

theorem enter_congr {here : Location} (same : s.find? here = t.find? here) (name : String) :
    s.enter here name = t.enter here name := by
  rw [enter, enter, same]

theorem SameDirectories.enter (h : s.SameDirectories t) {here : Location} {name : String}
    (entered : s.enter here name = .ok l) : t.enter here name = .ok l := by
  obtain ⟨mode, found, -⟩ := enter_ok_iff.1 entered
  have kept := (h here mode).1 found
  rw [← entered, enter_congr (found.trans kept.symm)]

theorem SameDirectories.walk (h : s.SameDirectories t) {names : List String}
    (walked : s.walk names = .ok l) : t.walk names = .ok l := by
  have onward : ∀ here, names.foldlM s.enter here = .ok l → names.foldlM t.enter here = .ok l := by
    clear walked
    induction names with
    | nil => exact fun _ => id
    | cons name rest ih =>
      intro here walked
      rw [List.foldlM_cons, bind_ok_iff] at walked
      obtain ⟨next, entered, others⟩ := walked
      rw [List.foldlM_cons, h.enter entered]
      exact ih next others
  exact onward [] walked

theorem SameDirectories.locate (h : s.SameDirectories t) {path : String}
    (located : s.locate path = .ok l) : t.locate path = .ok l := by
  unfold Tree.locate at located ⊢
  simp only [bind_ok_iff, refuse_ok_iff] at located ⊢
  obtain ⟨_, fine, named, walked⟩ := located
  exact ⟨(), fine, named, h.walk walked⟩

variable {directory : Location} {name path : String} {names : List String}

def SameBut (l : Location) (s t : Tree) : Prop := ∀ k ≠ l, s.find? k = t.find? k

theorem sameBut_of_remove (h : s.remove l = t.remove l) : s.SameBut l t := by
  intro k apart
  have same := congrArg (·.find? k) h
  simpa only [find?_remove, if_neg apart] using same

theorem enter_subset {here : Location} (h : t.enter here name = .ok l) :
    ∀ x ∈ l, x ∈ here ∨ x = name := by
  obtain ⟨_, -, -, -, rfl⟩ := enter_ok_iff.1 h
  intro x member
  split at member
  next => exact .inl member
  next =>
    split at member
    next => exact .inl (List.dropLast_subset here member)
    next => simpa using member

theorem walk_subset (h : t.walk names = .ok l) : ∀ x ∈ l, x ∈ names := by
  have onward : ∀ here, names.foldlM t.enter here = .ok l → ∀ x ∈ l, x ∈ here ∨ x ∈ names := by
    clear h
    induction names with
    | nil =>
      rintro here ⟨⟩ x member
      exact .inl member
    | cons first rest ih =>
      intro here h x member
      rw [List.foldlM_cons, bind_ok_iff] at h
      obtain ⟨next, entered, others⟩ := h
      rcases ih next others x member with before | later
      · rcases enter_subset entered x before with before | rfl
        · exact .inl before
        · exact .inr List.mem_cons_self
      · exact .inr (List.mem_cons_of_mem first later)
  intro x member
  simpa using onward [] h x member

namespace SameBut

theorem walk (h : s.SameBut (directory ++ [name]) t) (unnamed : name ∉ names) :
    s.walk names = t.walk names := by
  have onward : ∀ here, name ∉ here →
      names.foldlM s.enter here = names.foldlM t.enter here := by
    induction names with
    | nil => exact fun _ _ => rfl
    | cons first rest ih =>
      intro here outside
      obtain ⟨other, later⟩ := not_or.1 (List.mem_cons.not.1 unnamed)
      have there : here ≠ directory ++ [name] := by
        rintro rfl
        exact outside (List.mem_append_right _ (List.mem_singleton_self name))
      rw [List.foldlM_cons, List.foldlM_cons, enter_congr (h here there) first]
      cases entered : t.enter here first with
      | error fault => rfl
      | ok next =>
        refine ih later next fun inside => ?_
        rcases enter_subset entered name inside with before | same
        · exact outside before
        · exact other same
  exact onward [] List.not_mem_nil

theorem locate (h : s.SameBut (directory ++ [name]) t) (unnamed : name ∉ Path.names path) :
    s.locate path = t.locate path := by
  unfold Tree.locate
  rw [h.walk unnamed]

theorem entry (h : s.SameBut (directory ++ [name]) t) (unnamed : name ∉ Path.names path) :
    s.entry path = t.entry path := by
  unfold Tree.entry
  rw [h.locate unnamed]
  cases located : t.locate path with
  | error fault => rfl
  | ok l =>
    have apart : l ≠ directory ++ [name] := by
      rintro rfl
      unfold Tree.locate at located
      simp only [andThen_ok_iff, refuse_ok_iff] at located
      have inside := walk_subset located.2.2 name
      exact unnamed (inside (List.mem_append_right _ (List.mem_singleton_self name)))
    dsimp only [bind, Except.bind]
    rw [h l apart]

end SameBut

end LiteModel.Files.Tree
