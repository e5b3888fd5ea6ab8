import Mathlib.Algebra.Order.BigOperators.Group.List
import Mathlib.Algebra.Order.Group.Nat
import Mathlib.Data.List.DropRight
import LiteModel.Files.Replacement
import LiteModel.Proofs.Files.Tree

/-! Replacing a file, whole or not at all. Up to the renaming, a step or an interruption changes
nothing but the temporary file, so taking that one out always gives the tree there was; and the
renaming only works out where the destination is the place of a file or of nothing, which then gets
all the bytes. -/
namespace LiteModel.Files

open Sequencing

namespace Replacement

variable {r : Replacement} {s t next : Tree} {step : Step} {destination : String}
  {bytes : List UInt8} {fault : FileFault} {interruption : Option Interruption}

theorem freshName_notMem (taken : List String) : freshName taken ∉ taken := by
  intro member
  have short : (freshName taken).length ≤ (String.join taken).length := by
    rw [String.length_join]
    exact List.le_sum_of_mem (List.mem_map_of_mem member)
  have long : (freshName taken).length = 4 + (String.join taken).length := by
    have start : ".tmp".length = 4 := by decide
    simpa [freshName] using start
  omega

theorem plan_ok (h : plan t destination bytes = .ok r) : r.destination = destination ∧
    r.bytes = bytes ∧ t.find? r.temporary = none ∧
    ∃ directory name, r.temporary = directory ++ [name] ∧ name ∉ Path.names destination := by
  unfold plan at h
  simp only [bind_ok_iff] at h
  obtain ⟨_, -, start, -, directory, -, h⟩ := h
  cases h
  have fresh := freshName_notMem (t.namesIn directory ++ Path.names destination)
  obtain ⟨untaken, other⟩ := not_or.1 (List.mem_append.not.1 fresh)
  refine ⟨rfl, rfl, Tree.find?_eq_none_iff.2 fun p member here => ?_, directory, _, rfl, other⟩
  obtain ⟨k, e⟩ := p
  cases here
  exact untaken (Tree.mem_namesIn member)

theorem remove_perform (h : r.perform s step = .ok next) (early : step ≠ .rename) :
    next.remove r.temporary = s.remove r.temporary := by
  cases step with
  | create =>
    obtain ⟨_, rfl⟩ := Tree.create_ok h
    exact Tree.remove_insert
  | write | adoptMode =>
    unfold perform at h
    dsimp only at h
    split at h <;> cases h
    exact Tree.remove_insert
  | sync =>
    cases h
    rfl
  | rename => exact absurd rfl early

theorem remove_leave (i : Interruption) :
    (i.leave r s).remove r.temporary = s.remove r.temporary := by
  unfold Interruption.leave
  split
  next => exact Tree.remove_insert
  next => rfl

theorem attempt_ok (h : r.attempt interruption s step = .ok next) : r.perform s step = .ok next := by
  unfold attempt at h
  split at h
  next => cases h
  next => exact mapError_ok_iff.1 h

theorem remove_attempt {left : Tree} (h : r.attempt interruption s step = .error (left, fault)) :
    left.remove r.temporary = s.remove r.temporary := by
  unfold attempt at h
  split at h
  next i _ =>
    cases h
    exact remove_leave i
  next =>
    obtain ⟨_, -, same⟩ := mapError_error_iff.1 h
    cases same
    rfl

theorem run_ok {steps : List Step} {passed trees : List Tree}
    (h : r.run interruption passed s steps = (trees, .ok ())) :
    ∃ last rest, steps.foldlM r.perform s = .ok last ∧ trees = last :: rest := by
  induction steps generalizing passed s with
  | nil =>
    cases h
    exact ⟨s, passed, rfl, rfl⟩
  | cons step rest ih =>
    rw [run] at h
    split at h
    next next attempted =>
      obtain ⟨last, before, performed, same⟩ := ih h
      rw [List.foldlM_cons, attempt_ok attempted]
      exact ⟨last, before, performed, same⟩
    next => cases h

theorem run_of_perform {steps : List Step} {passed : List Tree} {last : Tree}
    (h : steps.foldlM r.perform s = .ok last) :
    ∃ rest, r.run none passed s steps = (last :: rest, .ok ()) := by
  induction steps generalizing passed s with
  | nil =>
    cases h
    exact ⟨passed, rfl⟩
  | cons step rest ih =>
    rw [List.foldlM_cons, bind_ok_iff] at h
    obtain ⟨next, performed, others⟩ := h
    have attempted : r.attempt none s step = .ok next := by
      rw [attempt, performed]
      rfl
    rw [run, attempted]
    exact ih others

theorem run_error {steps : List Step} {passed trees : List Tree} (early : .rename ∉ steps.dropLast)
    (h : r.run interruption passed s steps = (trees, .error fault)) :
    ∃ rest, trees = s.remove r.temporary :: rest := by
  induction steps generalizing passed s with
  | nil => cases h
  | cons step rest ih =>
    rw [run] at h
    split at h
    next next attempted =>
      cases rest with
      | nil => cases h
      | cons second others =>
        rw [List.dropLast_cons_cons, List.mem_cons, not_or] at early
        rw [← remove_perform (attempt_ok attempted) (Ne.symm early.1)]
        exact ih early.2 h
    next left _ attempted =>
      cases h
      exact ⟨_, by rw [remove_attempt attempted]⟩

theorem nonempty_of_getLast? {names : List String} {name : String}
    (trimmed : names.rdropWhile String.isEmpty = names) (last : names.getLast? = some name) :
    name.isEmpty = false := by
  have filled : names ≠ [] := by
    rintro rfl
    cases last
  have ending : names.getLast filled = name :=
    Option.some.inj ((List.getLast?_eq_some_getLast filled).symm.trans last)
  simpa [ending] using List.rdropWhile_eq_self_iff.1 trimmed filled

theorem target_ok {l : Location} (h : target t destination = .ok l) :
    t.locate destination = .ok l ∧
      ∃ directory name, l = directory ++ [name] ∧ name ∈ Path.names destination := by
  unfold target at h
  simp only [bind_ok_iff, refuse_ok_iff] at h
  obtain ⟨⟨⟩, fine, given, directory, walked, start, entered, h⟩ := h
  obtain ⟨mode, found, searched, -, arrived⟩ := Tree.enter_ok_iff.1 entered
  cases arrived
  have trimmed : ((Path.names destination).reverse.dropWhile String.isEmpty).reverse =
    (Path.names destination).rdropWhile String.isEmpty := rfl
  rw [trimmed] at walked h
  split at h
  next => cases h
  next => cases h
  next => cases h
  next name notStill notUp last =>
    obtain ⟨short, h⟩ := andThen_ok_iff.1 h
    split at h
    next => cases h
    next whole =>
      cases h
      -- there is no slash at the end
      have same : (Path.names destination).rdropWhile String.isEmpty = Path.names destination := by
        have front := List.rdropWhile_prefix String.isEmpty (Path.names destination)
        exact front.eq_of_length (Nat.le_antisymm front.length_le (Nat.not_lt.1 whole))
      rw [same] at walked last
      have still : Path.isStill name = false := by
        simpa [Path.isStill, nonempty_of_getLast? same last] using notStill
      have searchable := searched.resolve_left (by decide)
      have onward : t.enter directory name = .ok (directory ++ [name]) :=
        Tree.enter_ok_iff.2 ⟨mode, found, .inr searchable, short, by rw [still, if_neg notUp]; rfl⟩
      have arrived : t.walk (Path.names destination) = .ok (directory ++ [name]) := by
        rw [← List.dropLast_append_getLast? name last, Tree.walk_concat, walked]
        exact onward
      refine ⟨?_, directory, name, rfl, List.mem_of_getLast? last⟩
      unfold Tree.locate
      simp only [andThen_ok_iff, refuse_ok_iff]
      exact ⟨fine, given, arrived⟩

theorem target_congr {l : Location} (same : s.SameDirectories t) (h : target s destination = .ok l) :
    target t destination = .ok l := by
  unfold target at h ⊢
  simp only [bind_ok_iff, refuse_ok_iff] at h ⊢
  obtain ⟨_, fine, given, directory, walked, start, entered, h⟩ := h
  exact ⟨_, fine, given, directory, same.walk walked, start, same.enter entered, h⟩

theorem modeOf_eq {l : Location} (h : t.locate destination = .ok l) :
    modeOf t destination = t.modeAt l := by
  unfold modeOf Tree.entry Tree.modeAt
  rw [h]
  dsimp only [bind, Except.bind]
  cases t.find? l <;> rfl

def staged (r : Replacement) (t : Tree) (mode : Nat) : Tree :=
  t.insert r.temporary (.file r.bytes mode)

theorem sameDirectories_staged (absent : t.find? r.temporary = none) (mode : Nat) :
    (r.staged t mode).SameDirectories t :=
  Tree.sameDirectories_insert fun _ here => by cases absent.symm.trans here

theorem perform_write {data : List UInt8} {mode : Nat} :
    r.perform (t.insert r.temporary (.file data mode)) .write = .ok (r.staged t mode) := by
  simp [perform, staged, Entry.mode]

theorem perform_adoptMode {mode : Nat} : r.perform (r.staged t mode) .adoptMode =
    .ok (r.staged t (modeOf (r.staged t mode) r.destination)) := by
  simp [perform, staged, Entry.withMode]

theorem perform_rename_ok_iff {mode : Nat} : r.perform (r.staged t mode) .rename = .ok next ↔
    ∃ l, target (r.staged t mode) r.destination = .ok l ∧
      (∀ bits, (r.staged t mode).find? l ≠ some (.directory bits)) ∧
      (t.remove r.temporary).insert l (.file r.bytes mode) = next := by
  have there : (r.staged t mode).find? r.temporary = some (.file r.bytes mode) :=
    Tree.find?_insert_self
  have rest : (r.staged t mode).remove r.temporary = t.remove r.temporary := Tree.remove_insert
  unfold perform
  dsimp only
  rw [bind_ok_iff, there, rest]
  refine exists_congr fun l => and_congr_right fun _ => ?_
  cases (r.staged t mode).find? l with
  | none => simp
  | some e => cases e <;> simp

theorem perform_all {last : Tree} (h : Step.all.foldlM r.perform t = .ok last) :
    ∃ mode l, mode = modeOf (r.staged t temporaryMode) r.destination ∧
      target (r.staged t mode) r.destination = .ok l ∧
      (∀ bits, (r.staged t mode).find? l ≠ some (.directory bits)) ∧
      last = (t.remove r.temporary).insert l (.file r.bytes mode) := by
  simp only [Step.all, List.foldlM_cons, bind_ok_iff] at h
  obtain ⟨_, created, _, written, _, adopted, _, synced, _, renamed, rest⟩ := h
  cases rest
  obtain ⟨_, rfl⟩ := Tree.create_ok created
  cases perform_write.symm.trans written
  cases perform_adoptMode.symm.trans adopted
  cases synced
  obtain ⟨l, aimed, free, rfl⟩ := perform_rename_ok_iff.1 renamed
  exact ⟨_, l, rfl, aimed, free, rfl⟩

/-- A run that works out puts the bytes where the path leads to, in the place of a file or of
nothing, with the permission bits of that file or those of a new one. -/
theorem run_settled {trees : List Tree} (planned : plan t destination bytes = .ok r)
    (h : r.run interruption [] t Step.all = (trees, .ok ())) :
    ∃ l rest, t.locate destination = .ok l ∧ (∀ mode, t.find? l ≠ some (.directory mode)) ∧
      trees = t.insert l (.file bytes (t.modeAt l)) :: rest := by
  obtain ⟨rfl, rfl, absent, directory, fresh, place, unnamed⟩ := plan_ok planned
  obtain ⟨last, rest, performed, rfl⟩ := run_ok h
  obtain ⟨mode, l, adopted, aimed, free, rfl⟩ := perform_all performed
  have directories := sameDirectories_staged absent
  obtain ⟨located, parent, name, rfl, named⟩ := target_ok aimed
  -- the temporary file has another name than the destination
  have apart : parent ++ [name] ≠ r.temporary := by
    rw [place]
    intro same
    obtain ⟨-, same⟩ := List.append_inj' same rfl
    cases same
    exact unnamed named
  have kept : ∀ bits, (r.staged t bits).find? (parent ++ [name]) = t.find? (parent ++ [name]) :=
    fun bits => by rw [staged, Tree.find?_insert, if_neg apart]
  have located := (directories mode).locate located
  have before := (directories temporaryMode).symm.locate located
  refine ⟨_, rest, located, fun bits => kept mode ▸ free bits, ?_⟩
  rw [adopted, modeOf_eq before, Tree.modeAt, kept, Tree.remove_of_find?_none absent]
  rfl

end Replacement

namespace Tree

variable {t after : Tree} {destination : String} {bytes : List UInt8}

theorem replaceFile_ok (h : t.replaceFile destination bytes = (after, .ok ())) :
    ∃ l, t.locate destination = .ok l ∧ after.locate destination = .ok l ∧
      (∀ mode, t.find? l ≠ some (.directory mode)) ∧
      after = t.insert l (.file bytes (t.modeAt l)) := by
  unfold replaceFile at h
  split at h
  next => cases h
  next r planned =>
    cases ran : r.run none [] t Replacement.Step.all with
    | mk trees ending =>
      rw [ran] at h
      cases h
      obtain ⟨l, rest, located, free, rfl⟩ := Replacement.run_settled planned ran
      exact ⟨l, located, (sameDirectories_insert free).symm.locate located, free, rfl⟩

theorem exists_replaceFile {r : Replacement} {made : Tree} {l : Location}
    (planned : Replacement.plan t destination bytes = .ok r)
    (created : t.create r.temporary (fun _ => .file [] Replacement.temporaryMode) = .ok made)
    (aimed : Replacement.target t destination = .ok l)
    (free : ∀ mode, t.find? l ≠ some (.directory mode)) :
    ∃ after, t.replaceFile destination bytes = (after, .ok ()) := by
  obtain ⟨rfl, rfl, absent, -⟩ := Replacement.plan_ok planned
  obtain ⟨_, rfl⟩ := create_ok created
  have directories := Replacement.sameDirectories_staged absent
  have renamed := fun mode => Replacement.perform_rename_ok_iff.2
    ⟨l, Replacement.target_congr (directories mode).symm aimed,
      fun bits here => free bits ((directories mode l bits).1 here), rfl⟩
  obtain ⟨last, performed⟩ : ∃ last, Replacement.Step.all.foldlM r.perform t = .ok last := by
    simp only [Replacement.Step.all, List.foldlM_cons, bind_ok_iff]
    exact ⟨_, _, created, _, Replacement.perform_write, _, Replacement.perform_adoptMode, _, rfl, _,
      renamed _, rfl⟩
  obtain ⟨rest, ran⟩ : ∃ rest, r.run none [] t Replacement.Step.all = (last :: rest, .ok ()) :=
    Replacement.run_of_perform performed
  refine ⟨last, ?_⟩
  rw [replaceFile, planned]
  dsimp only
  rw [ran]
  rfl

theorem replaceFile_error {fault : FileFault}
    (h : t.replaceFile destination bytes = (after, .error fault)) : after = t := by
  unfold replaceFile at h
  split at h
  next =>
    cases h
    rfl
  next r planned =>
    obtain ⟨-, -, absent, -⟩ := Replacement.plan_ok planned
    cases ran : r.run none [] t Replacement.Step.all with
    | mk trees ending =>
      rw [ran] at h
      cases h
      obtain ⟨rest, rfl⟩ := Replacement.run_error (by decide) ran
      exact remove_of_find?_none absent

end Tree

end LiteModel.Files
