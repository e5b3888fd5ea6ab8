import LiteModel.Proofs.Container.Acceptance
import LiteModel.Proofs.Container.RoundTrip

/-! Containers that are cut short. Files are written from their end, and what is written first of a
model is the table of its empty buffer; so that table is the last four bytes, and who goes there
from the root comes to the end of the file. A read in a file whose end is missing gives what it
gives in the whole file, or nothing, so the way is the same, and the last step is missing. -/
namespace LiteModel.Container

/-- What stands at a position of this file stands there in the whole one. -/
def File.Begins (file whole : File) : Prop :=
  ∀ (position : Nat) (b : UInt8), file[position]? = some b → whole[position]? = some b

namespace File

def sentinel? (file : File) : Option Nat := do
  let model ← file.table? (← file.target? 0)
  let field ← (← file.place? model Slot.Model.buffers)
  file.target? ((← file.target? field) + 4)

variable {file whole : File} {position : Nat}

theorem begins_take (bytes : List UInt8) (n : Nat) :
    Begins (bytes.take n).toArray bytes.toArray := by
  intro position b there
  rw [List.getElem?_toArray, List.getElem?_take] at there
  rw [List.getElem?_toArray]
  split at there
  · exact there
  · cases there

namespace Begins

theorem byte? {n : Nat} (h : file.Begins whole) (read : file.byte? position = some n) :
    whole.byte? position = some n := by
  obtain ⟨b, there, rfl⟩ := Option.map_eq_some_iff.1 read
  rw [File.byte?, h position b there, Option.map_some]

theorem word? {width n : Nat} (h : file.Begins whole) (read : file.word? width position = some n) :
    whole.word? width position = some n := by
  induction width generalizing position n with
  | zero => exact read
  | succ width ih =>
    simp only [File.word?, Option.bind_eq_bind, Option.bind_eq_some_iff] at read ⊢
    obtain ⟨low, first, high, others, sum⟩ := read
    exact ⟨low, h.byte? first, high, ih others, sum⟩

theorem target? {target : Nat} (h : file.Begins whole)
    (read : file.target? position = some target) : whole.target? position = some target := by
  simp only [File.target?, Option.bind_eq_bind, Option.bind_eq_some_iff] at read ⊢
  obtain ⟨distance, word, sum⟩ := read
  exact ⟨distance, h.word? word, sum⟩

theorem table? {t : Table} (h : file.Begins whole) (read : file.table? position = some t) :
    whole.table? position = some t := by
  simp only [File.table?, Option.bind_eq_bind, Option.bind_eq_some_iff] at read ⊢
  obtain ⟨back, distance, read⟩ := read
  refine ⟨back, h.word? distance, ?_⟩
  split at read
  next => cases read
  next inside =>
    rw [if_neg inside]
    obtain ⟨size, word, made⟩ := Option.bind_eq_some_iff.1 read
    exact Option.bind_eq_some_iff.2 ⟨size, h.word? word, made⟩

theorem place? {t : Table} {slot : Nat} {found : Option Nat} (h : file.Begins whole)
    (read : file.place? t slot = some found) : whole.place? t slot = some found := by
  unfold File.place? at read ⊢
  split at read
  next low =>
    rw [if_pos low]
    obtain ⟨offset, word, made⟩ := Option.bind_eq_some_iff.1 read
    exact Option.bind_eq_some_iff.2 ⟨offset, h.word? word, made⟩
  next high =>
    rw [if_neg high]
    exact read

theorem sentinel? {r : Nat} (h : file.Begins whole) (read : file.sentinel? = some r) :
    whole.sentinel? = some r := by
  simp only [File.sentinel?, Option.bind_eq_bind, Option.bind_eq_some_iff] at read ⊢
  obtain ⟨root, start, model, table, found, place, field, present, list, leads, first⟩ := read
  exact ⟨root, h.target? start, model, h.table? table, found, h.place? place, field, present, list,
    h.target? leads, h.target? first⟩

end Begins

theorem le_size_of_word? {width n : Nat} (read : file.word? (width + 1) position = some n) :
    position + (width + 1) ≤ file.size := by
  induction width generalizing position n with
  | zero =>
    simp only [File.word?, Option.bind_eq_bind, Option.bind_eq_some_iff] at read
    obtain ⟨low, first, -⟩ := read
    obtain ⟨b, there, -⟩ := Option.map_eq_some_iff.1 first
    exact (Array.getElem?_eq_some_iff.1 there).1
  | succ width ih =>
    rw [File.word?] at read
    simp only [Option.bind_eq_bind, Option.bind_eq_some_iff] at read
    obtain ⟨low, -, high, others, -⟩ := read
    have := ih others
    omega

theorem tables?_cons {α : Type} {read : Nat → Option α} {a : α} {rest : List α}
    (list : file.tables? read position = some (a :: rest)) :
    ∃ r, file.target? (position + 4) = some r ∧ read r = some a := by
  obtain ⟨count, -, items⟩ := Option.bind_eq_some_iff.1 list
  have members := Sequencing.mapM_some_iff.1 items
  have length := members.length_eq
  rw [List.length_range, List.length_cons] at length
  subst length
  rw [List.range_succ_eq_map, List.forall₂_cons] at members
  exact Option.bind_eq_some_iff.1 members.1

theorem referred?_some {α : Type} {read : Nat → Option α} {t : Table} {slot : Nat} {a : α}
    (content : file.referred? t slot read = some (some a)) :
    ∃ field target, file.place? t slot = some (some field) ∧ file.target? field = some target ∧
      read target = some a := by
  obtain ⟨found, place, content⟩ := Option.bind_eq_some_iff.1 content
  cases found with
  | none => cases content
  | some field =>
    obtain ⟨_, content, same⟩ := Option.map_eq_some_iff.1 content
    cases same
    obtain ⟨target, leads, there⟩ := Option.bind_eq_some_iff.1 content
    exact ⟨field, target, place, leads, there⟩

theorem sentinel?_of_content? {m : Model} {b : Buffer} {rest : List Buffer}
    (read : file.content? = some m) (present : m.buffers = some (b :: rest)) :
    ∃ r, file.sentinel? = some r ∧ r + 4 ≤ file.size := by
  obtain ⟨root, start, read⟩ := Option.bind_eq_some_iff.1 read
  simp only [File.model?, Option.bind_eq_bind, Option.bind_eq_some_iff] at read
  obtain ⟨model, table, _, -, _, -, _, -, _, -, buffers, content, made⟩ := read
  cases made
  cases present
  obtain ⟨field, list, place, leads, items⟩ := referred?_some content
  obtain ⟨r, first, buffer⟩ := tables?_cons items
  obtain ⟨_, there, -⟩ := Option.bind_eq_some_iff.1 buffer
  obtain ⟨_, word, -⟩ := Option.bind_eq_some_iff.1 there
  refine ⟨r, ?_, le_size_of_word? word⟩
  simp only [File.sentinel?, Option.bind_eq_bind, Option.bind_eq_some_iff]
  exact ⟨root, start, model, table, some field, place, field, rfl, list, leads, first⟩

end File

namespace Write

theorem From.referencesTo {b : Builder} {places : List Nat}
    (behind : ∀ place ∈ places, place ≤ b.bytes.length) (sound : b.Sound) :
    From b (Write.references places) fun place b' => Stands b'.bytes place fun file p =>
      file.Lists places (fun place file q => q = file.size - place) p := by
  have stand : List.Forall₂ (fun a place => Stands b.bytes place fun file q => q = file.size - a)
      places places := List.forall₂_same.2 fun place member => ⟨behind place member, fun _ _ => rfl⟩
  exact From.references stand sound

/-- An empty buffer that is written before all else takes the last four bytes of the file. -/
theorem From.firstBuffer :
    From {} (buffer ⟨none⟩) fun place b' => place = 4 ∧ place ≤ b'.bytes.length := by
  obtain ⟨sound, grown, inside, -⟩ := buffer_makes ⟨none⟩ {} Builder.sound_empty
  exact ⟨sound, grown, rfl, inside⟩

theorem From.bufferPlaces (rest : List Buffer) :
    From {} ((⟨none⟩ :: rest).mapM buffer) fun places b' =>
      places.head? = some 4 ∧ ∀ place ∈ places, place ≤ b'.bytes.length := by
  rw [List.mapM_cons]
  refine From.firstBuffer.bind fun first b₁ sound₁ _ ⟨last, inside⟩ => ?_
  refine (From.mapM (fun e _ => buffer_makes e) sound₁).bind
    fun others b₂ sound₂ grown stand => ?_
  refine .pure sound₂ ⟨by rw [last]; rfl, List.forall_mem_cons.2 ⟨?_, fun place member => ?_⟩⟩
  · exact inside.trans grown.length_le
  · obtain ⟨i, below, rfl⟩ := List.mem_iff_getElem.1 member
    exact (stand.get (stand.length_eq ▸ below) below).1

theorem From.buffers (rest : List Buffer) :
    From {} (tables buffer (⟨none⟩ :: rest)) fun place b' =>
      Stands b'.bytes place fun file p => file.target? (p + 4) = some (file.size - 4) := by
  refine (From.bufferPlaces rest).bind fun places b₁ sound₁ _ ⟨first, behind⟩ => ?_
  refine (From.referencesTo behind sound₁).mono fun place b₂ _ lists => ?_
  refine lists.mono fun front _ _ ⟨_, _, members⟩ => ?_
  rw [List.head?_eq_getElem?] at first
  obtain ⟨_, points, rfl⟩ := members 0 4 first
  exact points.target?

theorem From.sentinel {m : Model} {rest : List Buffer} (first : m.buffers = some (⟨none⟩ :: rest)) :
    From {} (Write.model m) fun place b' => Stands b'.bytes place fun file p =>
      file.target? 0 = some p → file.sentinel? = some (file.size - 4) := by
  have buffers : From {} (m.buffers.mapM (tables buffer)) fun places b' =>
      Standing b' (fun _ file p => file.target? (p + 4) = some (file.size - 4)) m.buffers
        places := by
    rw [first, Option.mapM_some, map_eq_pure_bind]
    exact (From.buffers rest).bind fun place b' sound _ stands => .pure sound (.some stands)
  rw [model_eq]
  refine buffers.bind fun place b₁ sound₁ _ stands => From.modelAround stands sound₁ ?_
  intro file p codes subgraphs description table _ _ _ list start
  rw [first] at list
  cases list with
  | some list =>
  obtain ⟨t, found, -, fields⟩ := table
  obtain ⟨_, field, -, stands⟩ := fields 4
  cases stands with
  | some points =>
  simp only [File.sentinel?, Option.bind_eq_bind, Option.bind_eq_some_iff]
  exact ⟨p, start, t.view, found, _, field, _, rfl, _, points.target?, list⟩

end Write

theorem Model.encode_sentinel {m : Model} {rest : List Buffer}
    (first : m.buffers = some (⟨none⟩ :: rest)) (small : m.encode.length ≤ 0x80000000) :
    File.sentinel? m.encode.toArray = some (m.encode.length - 4) := by
  obtain ⟨-, -, stands⟩ := Write.From.sentinel first
  obtain ⟨-, p, points, sentinel⟩ := fileOf_holds stands small
  exact sentinel points.target?

/-- No proper prefix of such a container is accepted. -/
theorem Model.verify_take {m : Model} {rest : List Buffer}
    (first : m.buffers = some (⟨none⟩ :: rest)) (small : m.encode.length ≤ 0x80000000) {n : Nat}
    (short : n < m.encode.length) : verify (m.encode.take n) ≠ .ok () := by
  intro verified
  obtain ⟨cut, accepted⟩ := verify_ok_iff.1 verified
  obtain ⟨-, root, fine⟩ := File.accept_ok_iff.1 accepted
  obtain ⟨b, others, present, -⟩ := fine.sentinel
  obtain ⟨r, way, inside⟩ := File.sentinel?_of_content? (File.content?_of_root root) present
  -- the way is that of the whole container, which the prefix is too short for
  have whole := (File.begins_take m.encode n).sentinel? way
  rw [encode_sentinel first small] at whole
  cases whole
  rw [List.size_toArray, List.length_take] at inside
  omega

end LiteModel.Container
