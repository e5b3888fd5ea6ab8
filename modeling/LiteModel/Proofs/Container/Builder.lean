import LiteModel.Container.Builder
import LiteModel.Proofs.Container.Bytes

/-! What writing leaves behind. The file grows at its front, so what stands at a place stands there
in every file that is finished from the bytes: `Stands` says so of any property of a file and a
position. A step of writing keeps the noted vtables standing and all that was written before. -/
namespace LiteModel.Container

/-- Files end at a multiple of four and have at most two gigabytes, so that every distance between
two objects is a signed number of four bytes. -/
structure File.Finished (file : File) : Prop where
  aligned : file.size % 4 = 0
  bounded : file.size ≤ 0x80000000

def File.Counts (file : File) (count : Nat) (content : List UInt8) (position : Nat) : Prop :=
  position % 4 = 0 ∧ file.Holds position (Word.bytes 4 count ++ content)

structure File.Lists {α : Type} (file : File) (items : List α) (P : α → File → Nat → Prop)
    (position : Nat) : Prop where
  count : file.HasWord 4 position items.length
  inside : position + 4 + items.length * 4 ≤ file.size
  members : ∀ i a, items[i]? = some a → ∃ r, file.Points (position + 4 + 4 * i) r ∧ P a file r

/-- In every file finished from these bytes, the property holds where the place is. -/
def Stands (bs : List UInt8) (place : Nat) (P : File → Nat → Prop) : Prop :=
  place ≤ bs.length ∧ ∀ front, File.Finished (front ++ bs).toArray →
    P (front ++ bs).toArray ((front ++ bs).toArray.size - place)

namespace Stands

variable {bs bs' : List UInt8} {place : Nat} {P Q : File → Nat → Prop}

theorem extend (h : Stands bs place P) (grown : bs <:+ bs') : Stands bs' place P := by
  obtain ⟨more, rfl⟩ := grown
  refine ⟨?_, fun front finished => ?_⟩
  · have := h.1
    rw [List.length_append]
    omega
  · rw [← List.append_assoc] at finished ⊢
    exact h.2 (front ++ more) finished

theorem last (h : ∀ front, File.Finished (front ++ bs).toArray →
    P (front ++ bs).toArray front.length) : Stands bs bs.length P := by
  refine ⟨Nat.le_refl _, fun front finished => ?_⟩
  have start : (front ++ bs).toArray.size - bs.length = front.length := by simp
  rw [start]
  exact h front finished

theorem mono (h : Stands bs place P) (weaker : ∀ front, File.Finished (front ++ bs).toArray →
    place ≤ (front ++ bs).toArray.size →
    P (front ++ bs).toArray ((front ++ bs).toArray.size - place) →
    Q (front ++ bs).toArray ((front ++ bs).toArray.size - place)) : Stands bs place Q := by
  refine ⟨h.1, fun front finished => weaker front finished ?_ (h.2 front finished)⟩
  have := h.1
  simp only [List.size_toArray, List.length_append]
  omega

end Stands

namespace Builder

def pushed (b : Builder) (bs : List UInt8) : Builder :=
  ⟨bs ++ b.bytes, bs.length + b.size, b.vtables, by simp [b.size_eq]⟩

variable {b : Builder} {bs : List UInt8}

@[simp] theorem pushed_bytes : (b.pushed bs).bytes = bs ++ b.bytes := rfl

@[simp] theorem pushed_size : (b.pushed bs).size = bs.length + b.size := rfl

@[simp] theorem pushed_vtables : (b.pushed bs).vtables = b.vtables := rfl

theorem pushed_pushed (bs' : List UInt8) : (b.pushed bs).pushed bs' = b.pushed (bs' ++ bs) := by
  simp only [pushed, List.append_assoc, List.length_append, Nat.add_assoc]

theorem size_pushed_zeros (n : Nat) : (b.pushed (List.replicate n 0)).size = n + b.size := by
  simp

theorem suffix_pushed : b.bytes <:+ (b.pushed bs).bytes := List.suffix_append bs b.bytes

theorem stands_pushed (xs ys : List UInt8) :
    Stands (b.pushed (xs ++ ys)).bytes (b.pushed (xs ++ ys)).size fun file p =>
      p + (xs.length + ys.length + b.size) = file.size ∧ file.Holds p xs := by
  rw [(b.pushed _).size_eq]
  refine Stands.last fun front finished => ⟨?_, front, ys ++ b.bytes, ?_, rfl⟩
  · simp only [pushed_bytes, List.size_toArray, List.length_append, b.size_eq]
  · simp only [pushed_bytes, List.append_assoc]

/-- The noted vtables stand where they are noted, at even places. -/
def Sound (b : Builder) : Prop :=
  ∀ e ∈ b.vtables, e.2 % 2 = 0 ∧ Stands b.bytes e.2 fun file p => file.Holds p e.1

theorem sound_empty : ({} : Builder).Sound := nofun

theorem Sound.pushed (h : b.Sound) : (b.pushed bs).Sound := fun e he =>
  ⟨(h e he).1, (h e he).2.extend suffix_pushed⟩

end Builder

namespace Write

variable {α β : Type} {b : Builder}

/-- From this builder the writing goes on to a sound one and keeps the bytes; `Q` holds of its
result and the new builder. -/
def From (b : Builder) (w : Write α) (Q : α → Builder → Prop) : Prop :=
  (w.run b).2.Sound ∧ b.bytes <:+ (w.run b).2.bytes ∧ Q (w.run b).1 (w.run b).2

namespace From

variable {w : Write α} {Q Q' : α → Builder → Prop} {R : β → Builder → Prop}

theorem bind {k : α → Write β} (hw : From b w Q)
    (hk : ∀ a b', b'.Sound → b.bytes <:+ b'.bytes → Q a b' → From b' (k a) R) :
    From b (w >>= k) R := by
  obtain ⟨sound, grown, post⟩ := hw
  obtain ⟨sound', grown', post'⟩ := hk _ _ sound grown post
  exact ⟨sound', grown.trans grown', post'⟩

theorem pure {a : α} (sound : b.Sound) (h : Q a b) : From b (Pure.pure a) Q :=
  ⟨sound, List.suffix_refl _, h⟩

theorem mono (hw : From b w Q) (weaker : ∀ a b', b.bytes <:+ b'.bytes → Q a b' → Q' a b') :
    From b w Q' :=
  ⟨hw.1, hw.2.1, weaker _ _ hw.2.1 hw.2.2⟩

theorem of_pushed {a : α} {bs : List UInt8} (run : w.run b = (a, b.pushed bs)) (sound : b.Sound)
    (h : Q a (b.pushed bs)) : From b w Q := by
  unfold From
  rw [run]
  exact ⟨sound.pushed, Builder.suffix_pushed, h⟩

end From

def Makes (w : Write Nat) (P : File → Nat → Prop) : Prop :=
  ∀ b, b.Sound → From b w fun place b' => Stands b'.bytes place P

theorem From.mapM {writeOne : α → Write Nat} {P : α → File → Nat → Prop} {items : List α}
    (each : ∀ a ∈ items, (writeOne a).Makes (P a)) (sound : b.Sound) :
    From b (items.mapM writeOne) fun places b' =>
      List.Forall₂ (fun a place => Stands b'.bytes place (P a)) items places := by
  induction items generalizing b with
  | nil => exact .pure sound .nil
  | cons a rest ih =>
    rw [List.mapM_cons]
    have first := each a List.mem_cons_self b sound
    refine first.bind fun place b₁ sound₁ _ stands => ?_
    have others := ih (fun x hx => each x (List.mem_cons_of_mem a hx)) sound₁
    refine others.bind fun places b₂ sound₂ grown all => .pure sound₂ (.cons ?_ all)
    exact stands.extend grown

theorem Makes.mono {w : Write Nat} {P Q : File → Nat → Prop} (h : w.Makes P)
    (weaker : ∀ file p, File.Finished file → P file p → Q file p) : w.Makes Q := fun b sound =>
  (h b sound).mono fun _ _ _ stands => stands.mono fun _ finished _ => weaker _ _ finished

def Standing (b : Builder) (P : α → File → Nat → Prop) (o : Option α) (place : Option Nat) : Prop :=
  Option.Rel (fun a place => Stands b.bytes place (P a)) o place

theorem From.option {writeOne : α → Write Nat} {P : α → File → Nat → Prop} {o : Option α}
    (each : ∀ a, o = some a → (writeOne a).Makes (P a)) (sound : b.Sound) :
    From b (o.mapM writeOne) fun place b' => Standing b' P o place := by
  cases o with
  | none => exact .pure sound .none
  | some a =>
    rw [Option.mapM_some, map_eq_pure_bind]
    refine (each a rfl b sound).bind fun place b' sound' _ stands => ?_
    exact .pure sound' (.some stands)

namespace Standing

variable {P : α → File → Nat → Prop} {o : Option α} {place : Option Nat} {b' : Builder}

theorem extend (h : Standing b P o place) (grown : b.bytes <:+ b'.bytes) :
    Standing b' P o place := by
  cases h with
  | none => exact .none
  | some stands => exact .some (stands.extend grown)

theorem map {P : β → File → Nat → Prop} {f : α → β}
    (h : Standing b (fun a => P (f a)) o place) : Standing b P (o.map f) place := by
  cases h with
  | none => exact .none
  | some stands => exact .some stands

theorem found (h : Standing b P o place) (grown : b.bytes <:+ b'.bytes) {front : List UInt8}
    (finished : File.Finished (front ++ b'.bytes).toArray) :
    Option.Rel (fun a place => P a (front ++ b'.bytes).toArray
      ((front ++ b'.bytes).toArray.size - place)) o place := by
  cases h with
  | none => exact .none
  | some stands => exact .some ((stands.extend grown).2 front finished)

end Standing

def gap (size length alignment : Nat) : Nat :=
  (alignment - (size + length) % alignment) % alignment

theorem gap_lt (size length : Nat) {alignment : Nat} (positive : 0 < alignment) :
    gap size length alignment < alignment := Nat.mod_lt _ positive

theorem gap_add_mod (size length : Nat) {alignment : Nat} (positive : 0 < alignment) :
    (gap size length alignment + size + length) % alignment = 0 := by
  unfold gap
  have below := Nat.mod_lt (size + length) positive
  have split := Nat.div_add_mod (size + length) alignment
  rw [Nat.add_assoc, Nat.add_mod, Nat.mod_mod, ← Nat.add_mod]
  have whole : alignment - (size + length) % alignment + (size + length) =
      alignment * ((size + length) / alignment + 1) := by
    rw [Nat.mul_add]
    omega
  rw [whole, Nat.mul_mod_right]

theorem gap_eq_zero {size length alignment : Nat} (aligned : (size + length) % alignment = 0) :
    gap size length alignment = 0 := by
  rw [gap, aligned, Nat.sub_zero, Nat.mod_self]

theorem align_run (length alignment : Nat) :
    (align length alignment).run b =
      ((), b.pushed (List.replicate (gap b.size length alignment) 0)) := rfl

theorem word_run (width value : Nat) :
    (word width value).run b = ((), b.pushed (Word.bytes width value ++
      List.replicate (gap b.size width width) 0)) := by
  rw [← Builder.pushed_pushed]
  rfl

theorem reference_run (place : Nat) :
    (reference place).run b = ((), b.pushed (Word.bytes 4 (gap b.size 4 4 + b.size + 4 - place) ++
      List.replicate (gap b.size 4 4) 0)) := by
  rw [← Builder.pushed_pushed, ← Builder.size_pushed_zeros]
  rfl

def counted (count : Nat) (content : List UInt8) : Write Nat := do
  align content.length 4
  push content
  word 4 count
  here

theorem words_eq (values : List Nat) :
    words values = counted values.length (values.flatMap (Word.bytes 4)) := by
  rw [counted, length_words]
  rfl

theorem bytes_eq (data : List UInt8) : bytes data = counted data.length data := rfl

theorem text_eq (s : String) :
    text s = counted s.toUTF8.data.toList.length (s.toUTF8.data.toList ++ [0]) := by
  rw [counted, List.length_append]
  rfl

/-- The padding comes behind the content, so count and content are aligned without more of it. -/
theorem counted_run (count : Nat) (content : List UInt8) :
    let zeros := List.replicate (gap b.size content.length 4) 0
    (counted count content).run b = ((b.pushed (Word.bytes 4 count ++ (content ++ zeros))).size,
      b.pushed (Word.bytes 4 count ++ (content ++ zeros))) := by
  intro zeros
  have aligned := gap_add_mod b.size content.length (show 0 < 4 by omega)
  have steps : (counted count content).run b =
      (word 4 count >>= fun _ => here).run (b.pushed (content ++ zeros)) := by
    rw [← Builder.pushed_pushed]
    rfl
  have none : gap (b.pushed (content ++ zeros)).size 4 4 = 0 := by
    apply gap_eq_zero
    simp only [Builder.pushed_size, List.length_append, zeros, List.length_replicate]
    omega
  rw [steps, StateT.run_bind, word_run, none, List.replicate_zero, List.append_nil,
    ← Builder.pushed_pushed (Word.bytes 4 count)]
  rfl

theorem counted_makes (count : Nat) (content : List UInt8) :
    (counted count content).Makes fun file p => file.Counts count content p := by
  intro b sound
  refine .of_pushed (counted_run count content) sound ?_
  have aligned := gap_add_mod b.size content.length (show 0 < 4 by omega)
  rw [← List.append_assoc]
  refine (b.stands_pushed _ _).mono fun front finished _ ⟨start, held⟩ => ⟨?_, held⟩
  have whole := finished.aligned
  rw [List.length_append, Word.length_bytes, List.length_replicate] at start
  omega

def distances (tail : Nat) (places : List Nat) : List Nat :=
  places.mapIdx fun i place => tail + 4 * (places.length - i) - place

theorem length_distances (tail : Nat) (places : List Nat) :
    ((distances tail places).flatMap (Word.bytes 4)).length = 4 * places.length := by
  rw [length_words, distances, List.length_mapIdx]

theorem references_run (places : List Nat) :
    (references places).run b = (counted places.length ((distances
      (gap b.size (4 * places.length) 4 + b.size) places).flatMap (Word.bytes 4))).run b := by
  rw [counted, length_distances, ← Builder.size_pushed_zeros]
  rfl

theorem points_distances {file : File} {p tail i place : Nat} {places : List Nat}
    (finished : file.Finished) (start : p + (4 + 4 * places.length + tail) = file.size)
    (counts : file.Counts places.length ((distances tail places).flatMap (Word.bytes 4)) p)
    (there : places[i]? = some place) (behind : place ≤ tail) :
    file.Points (p + 4 + 4 * i) (file.size - place) := by
  obtain ⟨aligned, held⟩ := counts
  have small := finished.bounded
  have below : i < places.length := (List.getElem?_eq_some_iff.1 there).1
  have distance : (distances tail places)[i]? =
      some (tail + 4 * (places.length - i) - place) := by
    rw [distances, List.getElem?_mapIdx, there]
    rfl
  have entry := held.right.entry distance
  rw [Word.length_bytes] at entry
  refine ⟨_, entry.hasWord ?_ ?_, ?_⟩
  · omega
  · simp only [Word.capacity]
    omega
  · omega

theorem From.references {P : α → File → Nat → Prop} {items : List α} {places : List Nat}
    (stand : List.Forall₂ (fun a place => Stands b.bytes place (P a)) items places)
    (sound : b.Sound) :
    From b (references places) fun place b' =>
      Stands b'.bytes place fun file p => file.Lists items P p := by
  have same := stand.length_eq
  rw [From, references_run]
  generalize htail : gap b.size (4 * places.length) 4 + b.size = tail
  obtain ⟨sound', grown, counts⟩ :=
    counted_makes places.length ((distances tail places).flatMap (Word.bytes 4)) b sound
  have place : ((counted places.length ((distances tail places).flatMap (Word.bytes 4))).run b).1 =
      4 + 4 * places.length + tail := by
    rw [counted_run, length_distances]
    simp only [Builder.pushed_size, List.length_append, Word.length_bytes, length_distances,
      List.length_replicate]
    omega
  refine ⟨sound', grown, counts.mono fun front finished inFile counts => ?_⟩
  have held := counts.2.le_size
  have small := finished.bounded
  rw [place] at inFile
  rw [List.length_append, Word.length_bytes, length_distances] at held
  refine ⟨?_, by omega, fun i a hi => ?_⟩
  · rw [same]
    refine counts.2.left.hasWord counts.1 ?_
    simp only [Word.capacity]
    omega
  · obtain ⟨below, rfl⟩ := List.getElem?_eq_some_iff.1 hi
    have target := List.Forall₂.get stand below (same ▸ below)
    have behind : places[i] ≤ b.bytes.length := target.1
    rw [← b.size_eq] at behind
    refine ⟨_, points_distances finished ?_ counts (List.getElem?_eq_getElem (same ▸ below)) ?_,
      (target.extend grown).2 front finished⟩
    · rw [place]
      omega
    · omega

end Write

end LiteModel.Container
