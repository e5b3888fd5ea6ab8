import LiteModel.Proofs.Container.Acceptance
import LiteModel.Proofs.Container.Cost

/-! What a finished walk has used up at least. No check gives anything back, so the amounts of the
parts of a check add up to no more than the whole used, and the whole stays within its bound. The
data of a buffer is gone through as often as it is reached; so all data that is read through the
buffers of a file is within the bound, also where the same bytes are read again and again. -/
namespace LiteModel.Container

open Sequencing

theorem File.length_of_slice? {file : File} {position n : Nat} {bytes : List UInt8}
    (h : file.slice? position n = some bytes) : bytes.length = n := by
  unfold File.slice? at h
  split at h
  next inside =>
    cases h
    rw [Array.length_toList, Array.size_extract]
    omega
  next => cases h

/-- A run that comes to its end has added `n` bytes or more and has not passed the bound. -/
def Check.Grows {α : Type} (c : Check α) (n : Nat) : Prop :=
  ∀ u a v, c.run u = .ok (a, v) →
    u.size + n ≤ v.size ∧ (u.size ≤ Usage.maxSize → v.size ≤ Usage.maxSize)

namespace Check.Grows

variable {α β : Type}

theorem mono {c : Check α} {m n : Nat} (h : c.Grows n) (less : m ≤ n) : c.Grows m := by
  intro u a v run
  obtain ⟨added, bounded⟩ := h u a v run
  exact ⟨by omega, bounded⟩

theorem pure (a : α) : Check.Grows (Pure.pure a) 0 := by
  intro u b v run
  cases run
  exact ⟨Nat.le_refl _, id⟩

theorem refuse (fault : StructureFault) (n : Nat) : (Check.refuse (α := α) fault).Grows n := by
  intro u a v run
  cases run

theorem bind {c : Check α} {k : α → Check β} {m n : Nat} (first : c.Grows m)
    (next : ∀ a, c.Passes a → (k a).Grows n) : (c >>= k).Grows (m + n) := by
  intro u b w run
  rw [StateT.run_bind, bind_ok_iff] at run
  obtain ⟨⟨a, v⟩, before, after⟩ := run
  obtain ⟨addedFirst, boundedFirst⟩ := first u a v before
  obtain ⟨added, bounded⟩ := next a ⟨u, v, before⟩ v b w after
  exact ⟨by omega, fun small => bounded (boundedFirst small)⟩

theorem andThen {c : Check α} {k : α → Check β} (first : c.Grows 0)
    (next : ∀ a, (k a).Grows 0) : (c >>= k).Grows 0 :=
  first.bind fun a _ => next a

theorem require (holds : Bool) (fault : StructureFault) : (Check.require holds fault).Grows 0 := by
  cases holds with
  | true => exact pure ()
  | false => exact refuse fault 0

theorem forM {items : List α} {others : List β} {c : α → Check Unit} {amount : β → Nat}
    (each : List.Forall₂ (fun x y => (c x).Grows (amount y)) items others) :
    (items.forM c).Grows (others.map amount).sum := by
  induction each with
  | nil => exact pure ()
  | cons first _ ih =>
    rw [List.map_cons, List.sum_cons]
    exact first.bind fun _ _ => ih

theorem forM_zero {items : List α} {c : α → Check Unit} (each : ∀ x ∈ items, (c x).Grows 0) :
    (items.forM c).Grows 0 := by
  induction items with
  | nil => exact pure ()
  | cons x rest ih =>
    obtain ⟨first, others⟩ := List.forall_mem_cons.1 each
    exact first.andThen fun _ => ih others

variable {file : File}

theorem range (position size : Nat) : (Check.range file position size).Grows size := by
  intro u a v run
  by_cases inside : position + size ≤ file.size
  · rw [range_run inside] at run
    by_cases small : u.size + size ≤ Usage.maxSize
    · rw [decide_eq_true small] at run
      cases run
      exact ⟨Nat.le_refl _, fun _ => small⟩
    · rw [decide_eq_false small] at run
      cases run
  · unfold Check.range at run
    rw [decide_eq_false inside] at run
    cases run

theorem range_zero (position size : Nat) : (Check.range file position size).Grows 0 :=
  (range position size).mono (Nat.zero_le size)

theorem scalar (width position : Nat) : (Check.scalar file width position).Grows 0 :=
  (require _ _).andThen fun _ => range_zero position width

theorem word (width position : Nat) : (Check.word file width position).Grows 0 := by
  refine (scalar width position).andThen fun _ => ?_
  cases file.word? width position with
  | some n => exact pure n
  | none => exact refuse _ _

theorem reference {target : Nat → Check Unit} {position n : Nat}
    (there : ∀ p, file.target? position = some p → (target p).Grows n) :
    (Check.reference file target position).Grows n := by
  rw [← Nat.zero_add n]
  refine (word 4 position).bind fun k read => there _ ?_
  rw [File.target?, read.word.2]
  rfl

theorem words (width position : Nat) : (Check.words file width position).Grows 0 :=
  (word 4 position).andThen fun _ => (require _ _).andThen fun _ => range_zero _ _

theorem references {target : Nat → Check Unit} (position : Nat) (there : ∀ p, (target p).Grows 0) :
    (Check.references file target position).Grows 0 :=
  (word 4 position).andThen fun _ => (range_zero _ _).andThen fun _ =>
    forM_zero fun _ _ => reference fun p _ => there p

theorem text (position : Nat) : (Check.text file position).Grows 0 :=
  (word 4 position).andThen fun _ => (range_zero _ _).andThen fun _ =>
    (require _ _).andThen fun _ => require _ _

theorem counted (a : α) : Check.Grows (do
      modify fun u : Usage => { u with tables := u.tables + 1 }
      Check.require ((← get).tables ≤ Usage.maxTables) .tooManyTables
      return a) 0 := by
  intro u b v run
  rw [counted_run] at run
  exact (require _ _).andThen (fun _ => pure a) (u + ⟨0, 1⟩) b v run

theorem table (position : Nat) : (Check.table file position).Grows 0 :=
  (word 4 position).andThen fun _ => (require _ _).andThen fun _ => (word 2 _).andThen fun _ =>
    (require _ _).andThen fun _ => (range_zero _ _).andThen fun _ => counted _

theorem place (t : Table) (slot : Nat) : (Check.place file t slot).Grows 0 := by
  unfold Check.place
  split
  · exact (word 2 _).andThen fun _ => pure _
  · exact pure none

theorem field {t : Table} {slot n : Nat} {content : Nat → Check Unit}
    (present : ∀ q, file.place? t.view slot = some (some q) → (content q).Grows n)
    (absent : file.place? t.view slot = some none → n = 0) :
    (Check.field file t slot content).Grows n := by
  rw [← Nat.zero_add n]
  refine (place t slot).bind fun found stands => ?_
  have here := stands.place.2
  cases found with
  | none =>
    rw [absent here]
    exact pure ()
  | some q => exact present q here

theorem field_zero {t : Table} {slot : Nat} {content : Nat → Check Unit}
    (each : ∀ q, (content q).Grows 0) : (Check.field file t slot content).Grows 0 :=
  field (fun q _ => each q) fun _ => rfl

theorem referred_zero {t : Table} {slot : Nat} {target : Nat → Check Unit}
    (each : ∀ p, (target p).Grows 0) : (Check.referred file t slot target).Grows 0 :=
  field_zero fun _ => reference fun p _ => each p

theorem tables_zero {t : Table} {slot : Nat} {target : Nat → Check Unit}
    (each : ∀ p, (target p).Grows 0) :
    (Check.referred file t slot (Check.references file target)).Grows 0 :=
  referred_zero fun p => references p each

theorem operatorCode (position : Nat) : (Check.operatorCode file position).Grows 0 :=
  (table position).andThen fun _ => (field_zero (scalar 1)).andThen fun _ =>
    (referred_zero text).andThen fun _ => (field_zero (scalar 4)).andThen fun _ =>
      field_zero (scalar 4)

theorem tensor (position : Nat) : (Check.tensor file position).Grows 0 :=
  (table position).andThen fun _ => (referred_zero (words 4)).andThen fun _ =>
    (field_zero (scalar 1)).andThen fun _ => (field_zero (scalar 4)).andThen fun _ =>
      referred_zero text

theorem fullyConnected (position : Nat) : (Check.fullyConnected file position).Grows 0 :=
  (table position).andThen fun _ => (field_zero (scalar 1)).andThen fun _ =>
    (field_zero (scalar 1)).andThen fun _ => field_zero (scalar 1)

theorem softmax (position : Nat) : (Check.softmax file position).Grows 0 :=
  (table position).andThen fun _ => field_zero (scalar 4)

theorem options (t : Table) : (Check.options file t).Grows 0 := by
  refine (place t _).andThen fun value => (place t _).andThen fun tag => ?_
  split
  · exact pure ()
  · refine (word 1 _).andThen fun tag => ?_
    split
    · exact reference fun p _ => fullyConnected p
    · split
      · exact reference fun p _ => softmax p
      · exact pure ()
  · exact refuse _ _

theorem operator (position : Nat) : (Check.operator file position).Grows 0 :=
  (table position).andThen fun t => (field_zero (scalar 4)).andThen fun _ =>
    (referred_zero (words 4)).andThen fun _ => (referred_zero (words 4)).andThen fun _ => options t

theorem subgraph (position : Nat) : (Check.subgraph file position).Grows 0 :=
  (table position).andThen fun _ => (tables_zero tensor).andThen fun _ =>
    (referred_zero (words 4)).andThen fun _ => (referred_zero (words 4)).andThen fun _ =>
      (tables_zero operator).andThen fun _ => referred_zero text

theorem referred {t : Table} {slot n : Nat} {read : Nat → Option α} {o : Option α}
    {target : Nat → Check Unit} (h : file.referred? t.view slot read = some o)
    (present : ∀ p a, read p = some a → o = some a → (target p).Grows n)
    (absent : o = none → n = 0) : (Check.referred file t slot target).Grows n := by
  obtain ⟨found, stands, h⟩ := Option.bind_eq_some_iff.1 h
  refine field (fun q here => ?_) fun missing => ?_
  · cases stands.symm.trans here
    obtain ⟨a, given, rfl⟩ := Option.map_eq_some_iff.1 h
    obtain ⟨p, leads, given⟩ := Option.bind_eq_some_iff.1 given
    refine reference fun r again => ?_
    cases leads.symm.trans again
    exact present p a given rfl
  · cases stands.symm.trans missing
    cases h
    exact absent rfl

theorem data {position : Nat} {bytes : List UInt8} (read : file.bytes? position = some bytes) :
    (Check.words file 1 position).Grows bytes.length := by
  obtain ⟨n, count, slice⟩ := Option.bind_eq_some_iff.1 read
  rw [← Nat.zero_add bytes.length]
  refine (word 4 position).bind fun k again => ?_
  cases count.symm.trans again.word.2
  rw [← Nat.zero_add bytes.length]
  refine (require _ _).bind fun _ _ => (range _ _).mono ?_
  rw [File.length_of_slice? slice, Nat.mul_one]

theorem buffer {position : Nat} {b : Buffer} (read : file.buffer? position = some b) :
    (Check.buffer file position).Grows b.size := by
  obtain ⟨view, found, read⟩ := Option.bind_eq_some_iff.1 read
  obtain ⟨data?, given, made⟩ := Option.bind_eq_some_iff.1 read
  cases made
  rw [← Nat.zero_add (Buffer.size _)]
  refine (table position).bind fun t passes => ?_
  cases found.symm.trans passes.table.1
  refine referred given ?_ ?_
  · rintro p bytes here rfl
    exact data here
  · rintro rfl
    rfl

theorem buffers {position : Nat} {bs : List Buffer}
    (read : file.tables? file.buffer? position = some bs) :
    (Check.references file (Check.buffer file) position).Grows (bs.map (·.size)).sum := by
  obtain ⟨n, count, read⟩ := Option.bind_eq_some_iff.1 read
  rw [← Nat.zero_add (List.sum _)]
  refine (word 4 position).bind fun k again => ?_
  cases count.symm.trans again.word.2
  rw [← Nat.zero_add (List.sum _)]
  refine (range_zero _ _).bind fun _ _ => forM ?_
  refine (mapM_some_iff.1 read).imp fun i b member => reference fun p leads => ?_
  obtain ⟨r, again, read⟩ := Option.bind_eq_some_iff.1 member
  cases leads.symm.trans again
  exact buffer read

theorem model {position : Nat} {m : Model} (read : file.model? position = some m) :
    (Check.model file position).Grows ((m.buffers.getD []).map (·.size)).sum := by
  obtain ⟨view, found, read⟩ := Option.bind_eq_some_iff.1 read
  obtain ⟨version, -, read⟩ := Option.bind_eq_some_iff.1 read
  obtain ⟨codes, -, read⟩ := Option.bind_eq_some_iff.1 read
  obtain ⟨subgraphs, -, read⟩ := Option.bind_eq_some_iff.1 read
  obtain ⟨description, -, read⟩ := Option.bind_eq_some_iff.1 read
  obtain ⟨buffers?, given, made⟩ := Option.bind_eq_some_iff.1 read
  cases made
  have last : ∀ t : Table, t.view = view → (Check.referred file t Slot.Model.buffers
      (Check.references file (Check.buffer file))).Grows
        ((buffers?.getD []).map (·.size)).sum := by
    rintro t rfl
    refine referred given ?_ ?_
    · rintro p bs here rfl
      exact buffers here
    · rintro rfl
      rfl
  have sum : ((buffers?.getD []).map (·.size)).sum =
    0 + (0 + (0 + (0 + (0 + ((buffers?.getD []).map (·.size)).sum)))) := by omega
  rw [sum]
  exact (table position).bind fun t passes => (field_zero (scalar 4)).bind fun _ _ =>
    (tables_zero operatorCode).bind fun _ _ => (tables_zero subgraph).bind fun _ _ =>
      (referred_zero text).bind fun _ _ => last t (Option.some.inj (passes.table.1.symm.trans found))

end Check.Grows

theorem File.data_le_usage {file : File} {used : Usage} {m : Model}
    (walked : file.usage = .ok used) (read : file.content? = some m) :
    ((m.buffers.getD []).map (·.size)).sum ≤ used.size ∧ used.size ≤ Usage.maxSize := by
  obtain ⟨⟨_, u⟩, run, made⟩ := bind_ok_iff.1 walked
  cases made
  obtain ⟨p, leads, read⟩ := Option.bind_eq_some_iff.1 read
  have whole : (Check.reference file (Check.model file) 0).Grows
      ((m.buffers.getD []).map (·.size)).sum := by
    refine .reference fun q again => ?_
    cases leads.symm.trans again
    exact .model read
  obtain ⟨added, bounded⟩ := whole _ _ _ run
  exact ⟨by omega, bounded (Nat.zero_le _)⟩

theorem toNat_foldl_add {sizes : List Nat} {start : UInt64}
    (fits : start.toNat + sizes.sum < 2 ^ 64) :
    (sizes.foldl (fun sum size => sum + UInt64.ofNat size) start).toNat =
      start.toNat + sizes.sum := by
  induction sizes generalizing start with
  | nil => rfl
  | cons size rest ih =>
    rw [List.sum_cons] at fits
    have here : (start + UInt64.ofNat size).toNat = start.toNat + size := by
      rw [UInt64.toNat_add, UInt64.toNat_ofNat']
      omega
    rw [List.foldl_cons, ih (by omega), here, List.sum_cons]
    omega

/-- However often the buffers of a container share their data, its total is within the bound of the
walk. So no partial sum of the sizes leaves the range of a word. -/
theorem Summary.totalBufferBytes_le {bytes : List UInt8} {s : Summary}
    (h : Summary.ofBytes bytes = .ok s) :
    s.totalBufferBytes ≤ 2 ^ 31 ∧ ∀ sizes, sizes <+: s.bufferSizes →
      (sizes.foldl (fun sum size => sum + UInt64.ofNat size) 0).toNat = sizes.sum := by
  obtain ⟨m, g, rest, accepted, -, rfl⟩ := Summary.ofBytes_ok_iff.1 h
  obtain ⟨-, root, -⟩ := File.accept_ok_iff.1 accepted
  obtain ⟨used, walked, -⟩ := bind_ok_iff.1 root
  obtain ⟨added, bounded⟩ := File.data_le_usage walked (File.content?_of_root root)
  have total : (Summary.ofModel m g).bufferSizes.sum ≤ 2 ^ 31 := Nat.le_trans added bounded
  refine ⟨total, fun sizes first => ?_⟩
  obtain ⟨others, whole⟩ := first
  have small : sizes.sum ≤ 2 ^ 31 := by
    rw [← whole, List.sum_append] at total
    omega
  rw [toNat_foldl_add]
  · exact Nat.zero_add _
  · change 0 + sizes.sum < 2 ^ 64
    omega

/-- A container of 148 bytes. Eight of its nine buffers are one table with 32 bytes of data; the
first one is the bare table that is the subgraph as well. -/
def tiled : List UInt8 :=
  Word.bytes 4 24 ++ identifier ++
  -- the model: a version, a list of subgraphs and a list of buffers
  [14, 16, 4, 0, 8, 0, 12, 0].flatMap (Word.bytes 2) ++ [16, 3, 8, 12].flatMap (Word.bytes 4) ++
  [1, 48].flatMap (Word.bytes 4) ++
  [9, 40, 48, 44, 40, 36, 32, 28, 24, 20].flatMap (Word.bytes 4) ++
  -- the bare table
  [4, 4].flatMap (Word.bytes 2) ++ Word.bytes 4 4 ++
  -- the table with data
  [6, 8, 4, 0].flatMap (Word.bytes 2) ++ [8, 4, 32].flatMap (Word.bytes 4) ++ List.replicate 32 0

set_option maxRecDepth 4000 in
theorem Summary.totalBufferBytes_le_tiled : tiled.length = 148 ∧
    ∃ s, Summary.ofBytes tiled = .ok s ∧ s.totalBufferBytes = 256 ∧ s.totalBufferBytes ≤ 2 ^ 31 ∧
      ∀ sizes, sizes <+: s.bufferSizes →
        (sizes.foldl (fun sum size => sum + UInt64.ofNat size) 0).toNat = sizes.sum := by
  have read : Summary.ofBytes tiled = .ok ⟨3, none, [], 0 :: List.replicate 8 32, none, [], [], [],
    []⟩ := by cbv
  exact ⟨by decide, _, read, by decide, Summary.totalBufferBytes_le read⟩

end LiteModel.Container
