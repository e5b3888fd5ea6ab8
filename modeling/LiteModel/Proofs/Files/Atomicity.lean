import LiteModel.Proofs.Files.Replacement

/-! A replacement is never seen half done. Wherever it stops, each tree that it passes through is
the one there was but for the temporary file, or it is the last, with all the new bytes; and a path
to the destination does not lead through the temporary file, which has a name that is not on it. -/
namespace LiteModel.Files

open Sequencing

namespace Replacement

variable {r : Replacement} {s : Tree} {interruption : Option Interruption}

theorem run_passed {steps : List Step} {passed trees : List Tree} {ending : Except FileFault Unit}
    (early : .rename ∉ steps.dropLast) (h : r.run interruption passed s steps = (trees, ending)) :
    ∀ u ∈ trees, u ∈ passed ∨ u.remove r.temporary = s.remove r.temporary ∨
      (ending = .ok () ∧ trees.head? = some u) := by
  induction steps generalizing passed s with
  | nil =>
    cases h
    intro u member
    rcases List.mem_cons.1 member with rfl | before
    · exact .inr (.inl rfl)
    · exact .inl before
  | cons step rest ih =>
    rw [run] at h
    split at h
    next next attempted =>
      cases rest with
      | nil =>
        cases h
        intro u member
        rcases List.mem_cons.1 member with rfl | member
        · exact .inr (.inr ⟨rfl, rfl⟩)
        · rcases List.mem_cons.1 member with rfl | before
          · exact .inr (.inl rfl)
          · exact .inl before
      | cons second others =>
        rw [List.dropLast_cons_cons, List.mem_cons, not_or] at early
        have kept := remove_perform (attempt_ok attempted) (Ne.symm early.1)
        intro u member
        rcases ih early.2 h u member with before | same | last
        · rcases List.mem_cons.1 before with rfl | before
          · exact .inr (.inl rfl)
          · exact .inl before
        · exact .inr (.inl (same.trans kept))
        · exact .inr (.inr last)
    next left fault attempted =>
      cases h
      have kept := remove_attempt attempted
      intro u member
      simp only [List.mem_cons] at member
      rcases member with rfl | rfl | rfl | before
      · exact .inr (.inl (Tree.remove_remove.trans kept))
      · exact .inr (.inl kept)
      · exact .inr (.inl rfl)
      · exact .inl before

end Replacement

namespace Tree

/-- Every tree that a replacement passes through, the last one in front, and how it ends. A step
may be interrupted. -/
def replacement (t : Tree) (destination : String) (bytes : List UInt8)
    (interruption : Option Replacement.Interruption) : List Tree × Except FileFault Unit :=
  match Replacement.plan t destination bytes with
  | .error fault => ([t], .error fault)
  | .ok r => r.run interruption [] t Replacement.Step.all

/-- The tree has all the bytes at the destination, in the place of a file, whose permission bits they
get, or of nothing. Everywhere else it is as it was. -/
def Replaced (t : Tree) (destination : String) (bytes : List UInt8) (after : Tree) : Prop :=
  ∃ l mode, t.locate destination = .ok l ∧ after.locate destination = .ok l ∧
    ((∃ old, t.find? l = some (.file old mode)) ∨ (t.find? l = none ∧ mode = 0o644)) ∧
    after.find? l = some (.file bytes mode) ∧ after.SameBut l t

variable {t u : Tree} {l : Location} {destination : String} {bytes : List UInt8} {trees : List Tree}
  {ending : Except FileFault Unit} {interruption : Option Replacement.Interruption}

theorem replaceFile_eq : t.replaceFile destination bytes =
    ((t.replacement destination bytes none).1.headD t,
      (t.replacement destination bytes none).2) := by
  unfold replaceFile replacement
  cases Replacement.plan t destination bytes <;> rfl

theorem replaced_insert (located : t.locate destination = .ok l)
    (free : ∀ mode, t.find? l ≠ some (.directory mode)) :
    t.Replaced destination bytes (t.insert l (.file bytes (t.modeAt l))) := by
  refine ⟨l, t.modeAt l, located, (sameDirectories_insert free).symm.locate located, ?_,
    find?_insert_self, fun k apart => by rw [find?_insert, if_neg apart]⟩
  unfold modeAt
  cases found : t.find? l with
  | none => exact .inr ⟨rfl, rfl⟩
  | some e =>
    cases e with
    | file old mode => exact .inl ⟨old, rfl⟩
    | directory mode => exact absurd found (free mode)

theorem replacement_ok (h : t.replacement destination bytes interruption = (trees, .ok ())) :
    ∃ after, trees.head? = some after ∧ t.Replaced destination bytes after := by
  unfold replacement at h
  split at h
  next => cases h
  next r planned =>
    obtain ⟨l, rest, located, free, rfl⟩ := Replacement.run_settled planned h
    exact ⟨_, rfl, replaced_insert located free⟩

theorem replacement_error {fault : FileFault}
    (h : t.replacement destination bytes interruption = (trees, .error fault)) :
    trees.head? = some t := by
  unfold replacement at h
  split at h
  next =>
    cases h
    rfl
  next r planned =>
    obtain ⟨-, -, absent, -⟩ := Replacement.plan_ok planned
    obtain ⟨rest, rfl⟩ := Replacement.run_error (by decide) h
    rw [remove_of_find?_none absent, List.head?_cons]

theorem replacement_passed (h : t.replacement destination bytes interruption = (trees, ending))
    (member : u ∈ trees) :
    u.entry destination = t.entry destination ∨ (ending = .ok () ∧ trees.head? = some u) := by
  unfold replacement at h
  split at h
  next =>
    cases h
    rw [List.mem_singleton.1 member]
    exact .inl rfl
  next r planned =>
    obtain ⟨rfl, -, -, directory, name, place, unnamed⟩ := Replacement.plan_ok planned
    rcases Replacement.run_passed (by decide) h u member with none | same | last
    · cases none
    · rw [place] at same
      exact .inl ((sameBut_of_remove same).entry unnamed)
    · exact .inr last

/-- Replacing a file shows it whole at any time, the old one or the new one. Whatever the tree, the
destination and the interruption, each tree on the way has at the destination what was there, or
all is done; a failure leaves the tree as it was, without the temporary file; and a success changes
the destination alone. -/
theorem replaceFile_atomic (t : Tree) (destination : String) (bytes : List UInt8) :
    t.replaceFile destination bytes =
      ((t.replacement destination bytes none).1.headD t,
        (t.replacement destination bytes none).2) ∧
    ∀ interruption trees ending, t.replacement destination bytes interruption = (trees, ending) →
      (∀ u ∈ trees, u.entry destination = t.entry destination ∨ t.Replaced destination bytes u) ∧
      (∀ fault, ending = .error fault → trees.head? = some t) ∧
      (ending = .ok () → ∃ after, trees.head? = some after ∧
        t.Replaced destination bytes after) := by
  refine ⟨replaceFile_eq, fun interruption trees ending ran => ⟨fun u member => ?_, ?_, ?_⟩⟩
  · rcases replacement_passed ran member with same | ⟨rfl, last⟩
    · exact .inl same
    · obtain ⟨after, head, replaced⟩ := replacement_ok ran
      cases last.symm.trans head
      exact .inr replaced
  · rintro fault rfl
    exact replacement_error ran
  · rintro rfl
    exact replacement_ok ran

def reserved : Tree := ⟨"/srv/", [(["out"], .file [1, 2] 0o600), ([], .directory 0o755)]⟩

-- no space after the first byte: the temporary file shows, the destination stays
example : (reserved.replacement "out" [7, 9] (some ⟨.write, .other "no space", 1⟩)).1.map
    (fun u => (u.find? [".tmp000000"], u.entry "out")) =
      [(none, .ok (.file [1, 2] 0o600)), (some (.file [7] 0o600), .ok (.file [1, 2] 0o600)),
        (some (.file [] 0o600), .ok (.file [1, 2] 0o600)), (none, .ok (.file [1, 2] 0o600))] :=
  rfl

example : (reserved.replaceFile "out" [7, 9]).1.entry "out" = .ok (.file [7, 9] 0o600) := rfl

end Tree

end LiteModel.Files
