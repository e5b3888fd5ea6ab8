import LiteModel.Container.Decoding
import LiteModel.Container.Structure

/-! What a finished walk says about a file. A check passes with a value when it runs from some usage
to the end. A check made of parts passes only if its parts do, so all that the walk looked at
can be read off the one fact that it found no fault. -/
namespace LiteModel.Container

theorem File.table?_eq_some {file : File} {position back size : Nat}
    (read : file.word? 4 position = some back)
    (inFile : 0 ≤ (position : Int) - (UInt32.ofNat back).toInt32.toInt)
    (readSize : file.word? 2 ((position : Int) - (UInt32.ofNat back).toInt32.toInt).toNat =
      some size) :
    file.table? position =
      some ⟨position, ((position : Int) - (UInt32.ofNat back).toInt32.toInt).toNat, size⟩ := by
  unfold File.table?
  rw [read, Option.bind_eq_bind, Option.bind_some]
  dsimp only
  rw [if_neg (Int.not_lt.2 inFile), readSize]
  rfl

namespace Check

def Table.view (t : Table) : File.Table := ⟨t.position, t.vtable, t.vtableSize⟩

/-- Some run of the check comes to its end, with this value. -/
def Passes {α : Type} (c : Check α) (a : α) : Prop := ∃ u v, c.run u = .ok (a, v)

theorem Passes.of_bind {α β : Type} {c : Check α} {k : α → Check β} {b : β}
    (h : Passes (c >>= k) b) : ∃ a, Passes c a ∧ Passes (k a) b := by
  obtain ⟨u, w, h⟩ := h
  rw [StateT.run_bind] at h
  cases hc : c.run u with
  | error fault => rw [hc] at h; cases h
  | ok r =>
    rw [hc] at h
    exact ⟨r.1, ⟨u, r.2, hc⟩, r.2, w, h⟩

theorem Passes.of_pure {α : Type} {a b : α} (h : Passes (pure a) b) : a = b := by
  obtain ⟨u, v, h⟩ := h
  cases h
  rfl

theorem not_passes_refuse {α : Type} {fault : StructureFault} {a : α} :
    ¬ Passes (refuse fault) a := by
  rintro ⟨u, v, h⟩
  cases h

theorem Passes.holds {holds : Bool} {fault : StructureFault} {a : Unit}
    (h : Passes (Check.require holds fault) a) : holds = true := by
  cases holds with
  | true => rfl
  | false => exact absurd h not_passes_refuse

theorem Passes.forM {α : Type} {items : List α} {c : α → Check Unit} {a : Unit}
    (h : Passes (items.forM c) a) : ∀ x ∈ items, Passes (c x) () := by
  induction items with
  | nil => simp
  | cons y rest ih =>
    obtain ⟨_, first, others⟩ := h.of_bind
    intro x hx
    rcases List.mem_cons.1 hx with rfl | hx
    · exact first
    · exact ih others x hx

variable {file : File}

theorem Passes.range {position size : Nat} {a : Unit}
    (h : Passes (Check.range file position size) a) :
    position + size ≤ file.size := by
  obtain ⟨_, h, _⟩ := h.of_bind
  simpa using h.holds

theorem Passes.scalar {width position : Nat} {a : Unit}
    (h : Passes (Check.scalar file width position) a) :
    position + width ≤ file.size := by
  obtain ⟨_, _, h⟩ := h.of_bind
  exact h.range

theorem Passes.word {width position n : Nat} (h : Passes (Check.word file width position) n) :
    position + width ≤ file.size ∧ file.word? width position = some n := by
  obtain ⟨_, here, h⟩ := h.of_bind
  refine ⟨here.scalar, ?_⟩
  cases read : file.word? width position with
  | none => simp only [read] at h; exact absurd h not_passes_refuse
  | some k => simp only [read] at h; rw [h.of_pure]

theorem Passes.reference {target : Nat → Check Unit} {position : Nat} {a : Unit}
    (h : Passes (Check.reference file target position) a) :
    position + 4 ≤ file.size ∧
      ∃ q, file.target? position = some q ∧ Passes (target q) () := by
  obtain ⟨n, distance, h⟩ := h.of_bind
  obtain ⟨inside, read⟩ := distance.word
  exact ⟨inside, position + n, by simp [File.target?, read], h⟩

theorem Passes.words {width position : Nat} {a : Unit}
    (h : Passes (Check.words file width position) a) :
    ∃ n, file.word? 4 position = some n ∧ position + 4 + n * width ≤ file.size := by
  obtain ⟨n, count, h⟩ := h.of_bind
  obtain ⟨_, _, h⟩ := h.of_bind
  exact ⟨n, count.word.2, h.range⟩

theorem Passes.references {target : Nat → Check Unit} {position : Nat} {a : Unit}
    (h : Passes (Check.references file target position) a) :
    ∃ n, file.word? 4 position = some n ∧ position + 4 + n * 4 ≤ file.size ∧
      ∀ i < n, Passes (Check.reference file target (position + 4 + 4 * i)) () := by
  obtain ⟨n, count, h⟩ := h.of_bind
  obtain ⟨_, whole, h⟩ := h.of_bind
  refine ⟨n, count.word.2, whole.range, fun i hi => ?_⟩
  exact h.forM i (List.mem_range.2 hi)

theorem Passes.text {position : Nat} {a : Unit} (h : Passes (Check.text file position) a) :
    ∃ n s, file.word? 4 position = some n ∧ position + 4 + n ≤ file.size ∧
      file.text? (position + 4) n = some s := by
  obtain ⟨n, count, h⟩ := h.of_bind
  obtain ⟨_, whole, h⟩ := h.of_bind
  obtain ⟨_, valid, h⟩ := h.of_bind
  obtain ⟨s, hs⟩ := Option.isSome_iff_exists.1 valid.holds
  exact ⟨n, s, count.word.2, whole.range, hs⟩

theorem Passes.table {position : Nat} {t : Table} (h : Passes (Check.table file position) t) :
    file.table? position = some t.view ∧ t.position = position ∧
      position + 4 ≤ file.size ∧ t.vtable + 2 ≤ file.size ∧
      t.vtable + t.vtableSize ≤ file.size := by
  obtain ⟨back, distance, h⟩ := h.of_bind
  obtain ⟨_, bounds, h⟩ := h.of_bind
  obtain ⟨size, first, h⟩ := h.of_bind
  obtain ⟨_, _, h⟩ := h.of_bind
  obtain ⟨_, whole, h⟩ := h.of_bind
  obtain ⟨_, _, h⟩ := h.of_bind
  obtain ⟨_, _, h⟩ := h.of_bind
  obtain ⟨_, _, h⟩ := h.of_bind
  obtain ⟨inside, read⟩ := distance.word
  obtain ⟨start, readSize⟩ := first.word
  have bounds := bounds.holds
  simp only [Bool.and_eq_true, decide_eq_true_eq] at bounds
  have found := File.table?_eq_some read bounds.1 readSize
  cases h.of_pure
  exact ⟨found, rfl, inside, start, whole.range⟩

theorem Passes.place {t : Table} {slot : Nat} {found : Option Nat}
    (h : Passes (Check.place file t slot) found) :
    (slot < t.vtableSize → t.vtable + slot + 2 ≤ file.size) ∧
      file.place? t.view slot = some found := by
  unfold Check.place at h
  by_cases low : slot < t.vtableSize
  · rw [if_pos low] at h
    obtain ⟨offset, entry, h⟩ := h.of_bind
    obtain ⟨inside, read⟩ := entry.word
    exact ⟨fun _ => inside, by simp [File.place?, Table.view, low, read, h.of_pure]⟩
  · rw [if_neg low] at h
    exact ⟨fun within => absurd within low, by simp [File.place?, Table.view, low, h.of_pure]⟩

theorem Passes.field {t : Table} {slot : Nat} {content : Nat → Check Unit} {a : Unit}
    (h : Passes (Check.field file t slot content) a) :
    ∃ found, Passes (Check.place file t slot) found ∧
      ∀ q, found = some q → Passes (content q) () := by
  obtain ⟨found, here, h⟩ := h.of_bind
  refine ⟨found, here, fun q hq => ?_⟩
  subst hq
  exact h

end Check

end LiteModel.Container
