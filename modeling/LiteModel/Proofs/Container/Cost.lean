import Mathlib.Algebra.Group.Defs
import LiteModel.Proofs.Container.Walk

/-! What checks use up. A check uses an amount when it adds that amount to whatever was used before,
or is refused because a bound is passed with it. The amounts of the parts of a check add up, so a
walk is refused for its bounds only if the whole of it is beyond them. -/
namespace LiteModel.Container

namespace Usage

instance : Add Usage := ⟨fun u v => ⟨u.size + v.size, u.tables + v.tables⟩⟩

instance : Zero Usage := ⟨⟨0, 0⟩⟩

@[simp] theorem size_add (u v : Usage) : (u + v).size = u.size + v.size := rfl

@[simp] theorem tables_add (u v : Usage) : (u + v).tables = u.tables + v.tables := rfl

@[simp] theorem size_zero : (0 : Usage).size = 0 := rfl

@[simp] theorem tables_zero : (0 : Usage).tables = 0 := rfl

@[ext] theorem ext {u v : Usage} (size : u.size = v.size) (tables : u.tables = v.tables) :
    u = v := by
  cases u
  cases v
  cases size
  cases tables
  rfl

instance : AddCommMonoid Usage where
  add_assoc u v w := by ext <;> simp [Nat.add_assoc]
  zero_add u := by ext <;> simp
  add_zero u := by ext <;> simp
  add_comm u v := by ext <;> simp [Nat.add_comm]
  nsmul := nsmulRec

def bytes (n : Nat) : Usage := ⟨n, 0⟩

@[simp] theorem size_bytes (n : Nat) : (bytes n).size = n := rfl

@[simp] theorem tables_bytes (n : Nat) : (bytes n).tables = 0 := rfl

end Usage

structure File.HasWord (file : File) (width position n : Nat) : Prop where
  aligned : position % width = 0
  inside : position + width ≤ file.size
  read : file.word? width position = some n

namespace Check

theorem range_run {file : File} {position size : Nat} (h : position + size ≤ file.size)
    (u : Usage) : (Check.range file position size).run u =
      (Check.require (u.size + size ≤ Usage.maxSize) .apparentSizeTooLarge).run
        (u + Usage.bytes size) := by
  unfold Check.range
  rw [decide_eq_true h]
  rfl

theorem counted_run {α : Type} (a : α) (u : Usage) : StateT.run (do
      modify fun u : Usage => { u with tables := u.tables + 1 }
      Check.require ((← get).tables ≤ Usage.maxTables) .tooManyTables
      return a : Check α) u =
    (Check.require (u.tables + 1 ≤ Usage.maxTables) .tooManyTables >>= fun _ =>
      (return a : Check α)).run (u + ⟨0, 1⟩) := rfl

/-- The check gives this value and uses up `d`, whatever was used before, unless it is refused for a
bound that is passed when `d` is added. -/
def Uses {α : Type} (c : Check α) (a : α) (d : Usage) : Prop :=
  ∀ u, c.run u = .ok (a, u + d) ∨
    (c.run u = .error .apparentSizeTooLarge ∧ Usage.maxSize < (u + d).size) ∨
    (c.run u = .error .tooManyTables ∧ Usage.maxTables < (u + d).tables)

namespace Uses

variable {α β : Type}

theorem pure (a : α) : Uses (Pure.pure a) a 0 := fun u => .inl (by rw [add_zero]; rfl)

theorem bind {c : Check α} {k : α → Check β} {a : α} {b : β} {d e : Usage} (hc : Uses c a d)
    (hk : Uses (k a) b e) : Uses (c >>= k) b (d + e) := by
  intro u
  rw [StateT.run_bind, ← add_assoc]
  rcases hc u with run | ⟨run, beyond⟩ | ⟨run, beyond⟩
  · rw [run]
    exact hk (u + d)
  · refine .inr (.inl ⟨by rw [run]; rfl, ?_⟩)
    rw [Usage.size_add]
    omega
  · refine .inr (.inr ⟨by rw [run]; rfl, ?_⟩)
    rw [Usage.tables_add]
    omega

theorem require {holds : Bool} {fault : StructureFault} (h : holds = true) :
    Uses (Check.require holds fault) () 0 := by
  rw [h]
  exact pure ()

theorem forM {items : List α} {c : α → Check Unit} {d : α → Usage}
    (h : ∀ x ∈ items, Uses (c x) () (d x)) : Uses (items.forM c) () (items.map d).sum := by
  induction items with
  | nil => exact pure ()
  | cons x rest ih =>
    rw [List.map_cons, List.sum_cons]
    exact (h x List.mem_cons_self).bind (ih fun y hy => h y (List.mem_cons_of_mem x hy))

variable {file : File} {position : Nat}

theorem range {size : Nat} (h : position + size ≤ file.size) :
    Uses (Check.range file position size) () (Usage.bytes size) := by
  intro u
  by_cases small : u.size + size ≤ Usage.maxSize
  · rw [range_run h, decide_eq_true small]
    exact .inl rfl
  · rw [range_run h, decide_eq_false small]
    refine .inr (.inl ⟨rfl, ?_⟩)
    rw [Usage.size_add, Usage.size_bytes]
    omega

theorem scalar {width : Nat} (aligned : position % width = 0) (h : position + width ≤ file.size) :
    Uses (Check.scalar file width position) () (Usage.bytes width) := by
  rw [← zero_add (Usage.bytes width)]
  exact (require (by simp [aligned])).bind (range h)

theorem word {width n : Nat} (h : file.HasWord width position n) :
    Uses (Check.word file width position) n (Usage.bytes width) := by
  rw [← add_zero (Usage.bytes width)]
  refine (scalar h.aligned h.inside).bind ?_
  rw [h.read]
  exact pure n

theorem reference {target : Nat → Check Unit} {n : Nat} {d : Usage}
    (h : file.HasWord 4 position n) (there : Uses (target (position + n)) () d) :
    Uses (Check.reference file target position) () (Usage.bytes 4 + d) :=
  (word h).bind there

theorem words {width n : Nat} (count : file.HasWord 4 position n)
    (aligned : (position + 4) % width = 0) (inside : position + 4 + n * width ≤ file.size) :
    Uses (Check.words file width position) () (Usage.bytes (4 + n * width)) := by
  have sum : Usage.bytes (4 + n * width) = Usage.bytes 4 + (0 + Usage.bytes (n * width)) := by
    ext <;> simp
  rw [sum]
  exact (word count).bind ((require (by simp [aligned])).bind (range inside))

theorem references {target : Nat → Check Unit} {n : Nat} {d : Nat → Usage}
    (count : file.HasWord 4 position n) (inside : position + 4 + n * 4 ≤ file.size)
    (each : ∀ i < n, Uses (Check.reference file target (position + 4 + 4 * i)) () (d i)) :
    Uses (Check.references file target position) ()
      (Usage.bytes (4 + n * 4) + ((List.range n).map d).sum) := by
  have sum : Usage.bytes (4 + n * 4) = Usage.bytes 4 + Usage.bytes (n * 4) := by ext <;> simp
  rw [sum, add_assoc]
  exact (word count).bind ((range inside).bind (forM fun i hi => each i (List.mem_range.1 hi)))

theorem text {n : Nat} {s : String} (count : file.HasWord 4 position n)
    (inside : position + 4 + n ≤ file.size) (valid : file.text? (position + 4) n = some s)
    (ended : file[position + 4 + n]? = some 0) :
    Uses (Check.text file position) () (Usage.bytes (4 + n)) := by
  have sum : Usage.bytes (4 + n) = Usage.bytes 4 + (Usage.bytes n + (0 + 0)) := by ext <;> simp
  rw [sum]
  exact (word count).bind ((range inside).bind
    ((require (by simp [valid])).bind (require (by simp [ended]))))

theorem counted (a : α) : Uses (do
      modify fun u : Usage => { u with tables := u.tables + 1 }
      Check.require ((← get).tables ≤ Usage.maxTables) .tooManyTables
      return a) a ⟨0, 1⟩ := by
  intro u
  by_cases few : u.tables + 1 ≤ Usage.maxTables
  · rw [counted_run, decide_eq_true few]
    exact .inl rfl
  · rw [counted_run, decide_eq_false few]
    refine .inr (.inr ⟨rfl, ?_⟩)
    change Usage.maxTables < u.tables + 1
    omega

/-- The distance back is a signed number, so the vtable is given by where it stands. -/
theorem table {back vtable size : Nat} (distance : file.HasWord 4 position back)
    (there : (position : Int) - (UInt32.ofNat back).toInt32.toInt = vtable)
    (first : file.HasWord 2 vtable size) (aligned : (vtable + size) % 2 = 0)
    (inside : vtable + size ≤ file.size) :
    Uses (Check.table file position) ⟨position, vtable, size⟩ (⟨6 + size, 1⟩ : Usage) := by
  have sum : (⟨6 + size, 1⟩ : Usage) = Usage.bytes 4 + (0 + (Usage.bytes 2 +
      (0 + (Usage.bytes size + ⟨0, 1⟩)))) := by
    ext
    · simp only [Usage.size_add, Usage.size_bytes, Usage.size_zero]
      omega
    · rfl
  have below : vtable < file.size := by have := first.inside; omega
  rw [sum]
  refine (word distance).bind ?_
  rw [there]
  refine (require (by simp [below])).bind ((word first).bind ((require (by simp [aligned])).bind
    ((range inside).bind (counted _))))

theorem place {t : Table} {slot : Nat} {n : Nat} (low : slot < t.vtableSize)
    (entry : file.HasWord 2 (t.vtable + slot) n) :
    Uses (Check.place file t slot) (if n = 0 then none else some (t.position + n))
      (Usage.bytes 2) := by
  rw [← add_zero (Usage.bytes 2)]
  unfold Check.place
  rw [if_pos low]
  exact (word entry).bind (pure _)

theorem place_beyond {t : Table} {slot : Nat} (high : t.vtableSize ≤ slot) :
    Uses (Check.place file t slot) none 0 := by
  unfold Check.place
  rw [if_neg (Nat.not_lt.2 high)]
  exact pure none

theorem field {t : Table} {slot q : Nat} {content : Nat → Check Unit} {d e : Usage}
    (here : Uses (Check.place file t slot) (some q) d) (h : Uses (content q) () e) :
    Uses (Check.field file t slot content) () (d + e) := here.bind h

theorem field_absent {t : Table} {slot : Nat} {content : Nat → Check Unit} {d : Usage}
    (here : Uses (Check.place file t slot) none d) :
    Uses (Check.field file t slot content) () d := by
  rw [← add_zero d]
  exact here.bind (pure ())

end Uses

end Check

end LiteModel.Container
