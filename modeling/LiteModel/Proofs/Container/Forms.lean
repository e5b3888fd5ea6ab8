import LiteModel.Container.Decoding
import LiteModel.Container.Encoding
import LiteModel.Proofs.Container.Table

/-! Kinds of objects, each with how it is read, how the walk goes through it and what that uses up.
Lists and texts fit their kind wherever they are written, and so do the fields of a table: a number
that was left out reads as its default, a reference leads to what it was written for. -/
namespace LiteModel.Container

theorem toInt8_toUInt8 (x : Int8) : (UInt8.ofNat x.toUInt8.toNat).toInt8 = x := by
  rw [UInt8.ofNat_toNat, Int8.toInt8_toUInt8]

theorem toInt32_toUInt32 (x : Int32) : (UInt32.ofNat x.toUInt32.toNat).toInt32 = x := by
  rw [UInt32.ofNat_toNat, Int32.toInt32_toUInt32]

structure Form (α : Type) where
  read : File → Nat → Option α
  check : File → Nat → Check Unit
  usage : α → Usage

namespace Form

variable {α β : Type}

/-- At a position stands what is read as `a` and gone through at its price. -/
def Fits (F : Form α) (a : α) (file : File) (position : Nat) : Prop :=
  F.read file position = some a ∧ (F.check file position).Uses () (F.usage a)

def integers : Form (List Int32) where
  read := File.integers?
  check file := Check.words file 4
  usage values := Usage.bytes (4 + values.length * 4)

def bytes : Form (List UInt8) where
  read := File.bytes?
  check file := Check.words file 1
  usage data := Usage.bytes (4 + data.length * 1)

def text : Form String where
  read := File.countedText?
  check := Check.text
  usage s := Usage.bytes (4 + s.toUTF8.data.toList.length)

def tables (F : Form α) : Form (List α) where
  read file := file.tables? (F.read file)
  check file := Check.references file (F.check file)
  usage items := Usage.bytes (4 + items.length * 4) +
    (items.map fun a => Usage.bytes 4 + F.usage a).sum

variable {file : File} {position : Nat}

theorem hasWord_count {count : Nat} {content : List UInt8} (finished : file.Finished)
    (h : file.Counts count content position) (covered : count ≤ content.length) :
    file.HasWord 4 position count := by
  have bound := h.2.le_size
  have small := finished.bounded
  refine h.2.left.hasWord h.1 ?_
  rw [List.length_append] at bound
  simp only [Word.capacity]
  omega

theorem integers_makes (values : List Int32) :
    (Write.integers values).Makes (integers.Fits values) := by
  unfold Write.integers
  rw [Write.words_eq, List.length_map]
  refine (Write.counted_makes _ _).mono fun file p finished counts => ?_
  have length := length_words 4 (values.map fun v => v.toUInt32.toNat)
  rw [List.length_map] at length
  have count := hasWord_count finished counts (by omega)
  have inside := counts.2.le_size
  rw [List.length_append, Word.length_bytes] at inside
  have content := counts.2.right
  rw [Word.length_bytes] at content
  refine ⟨?_, .words count ?_ ?_⟩
  · change File.integers? file p = some values
    unfold File.integers?
    refine File.list?_of_members count.read fun i v hi => ?_
    have entry : (values.map fun v => v.toUInt32.toNat)[i]? = some v.toUInt32.toNat := by
      rw [List.getElem?_map, hi]
      rfl
    have here := (content.entry entry).word?
    have small : v.toUInt32.toNat % Word.capacity 4 = v.toUInt32.toNat :=
      Nat.mod_eq_of_lt v.toUInt32.toNat_lt
    rw [here, small]
    exact congrArg some (toInt32_toUInt32 v)
  · have aligned := counts.1
    omega
  · omega

theorem bytes_makes (data : List UInt8) : (Write.bytes data).Makes (bytes.Fits data) := by
  rw [Write.bytes_eq]
  refine (Write.counted_makes _ _).mono fun file p finished counts => ?_
  have count := hasWord_count finished counts (Nat.le_refl _)
  have inside := counts.2.le_size
  rw [List.length_append, Word.length_bytes] at inside
  have content := counts.2.right
  rw [Word.length_bytes] at content
  refine ⟨?_, .words count (Nat.mod_one _) (by omega)⟩
  change File.bytes? file p = some data
  rw [File.bytes?, count.read]
  exact content.slice?

theorem text_makes (s : String) : (Write.text s).Makes (text.Fits s) := by
  rw [Write.text_eq]
  refine (Write.counted_makes _ _).mono fun file p finished counts => ?_
  have count := hasWord_count finished counts (by simp)
  have inside := counts.2.le_size
  rw [List.length_append, List.length_append, Word.length_bytes] at inside
  have content := counts.2.right
  rw [Word.length_bytes] at content
  have valid := content.left.text?
  refine ⟨?_, .text count (by omega) valid content.right.getElem?⟩
  change File.countedText? file p = some s
  rw [File.countedText?, count.read]
  exact valid

theorem sum_range {items : List α} {d : Nat → Usage} {g : α → Usage}
    (same : ∀ i a, items[i]? = some a → d i = g a) :
    ((List.range items.length).map d).sum = (items.map g).sum := by
  congr 1
  refine List.ext_getElem (by simp) fun i low _ => ?_
  have inside : i < items.length := by simpa using low
  simpa using same i items[i] (List.getElem?_eq_getElem inside)

theorem tables_makes {F : Form β} {f : α → β} {writeOne : α → Write Nat} (items : List α)
    (each : ∀ a ∈ items, (writeOne a).Makes (F.Fits (f a))) :
    (Write.tables writeOne items).Makes ((tables F).Fits (items.map f)) := by
  intro b sound
  refine (Write.From.mapM each sound).bind fun places b' sound' _ stands => ?_
  refine (Write.From.references stands sound').mono fun _ _ _ list => ?_
  refine list.mono fun front _ _ list => ?_
  generalize (front ++ _).toArray = file at list ⊢
  generalize file.size - _ = p at list ⊢
  obtain ⟨count, inside, members⟩ := list
  rw [← List.length_map f] at count inside
  refine ⟨?_, ?_⟩
  · change File.tables? file (F.read file) p = some (items.map f)
    unfold File.tables?
    refine File.list?_of_members count.read fun i x hi => ?_
    rw [List.getElem?_map] at hi
    obtain ⟨a, ha, rfl⟩ := Option.map_eq_some_iff.1 hi
    obtain ⟨r, points, fits⟩ := members i a ha
    have here : F.read file r = some (f a) := fits.1
    simp [points.target?, here]
  · have price : ∀ i < items.length,
        (Check.reference file (F.check file) (p + 4 + 4 * i)).Uses ()
          (Usage.bytes 4 + (items[i]?.map fun a => F.usage (f a)).getD 0) := by
      intro i low
      have there := List.getElem?_eq_getElem low
      obtain ⟨r, points, fits⟩ := members i _ there
      rw [there]
      exact .points points fits.2
    have total : (((items.map f).map fun a => Usage.bytes 4 + F.usage a)).sum =
        ((List.range items.length).map fun i =>
          Usage.bytes 4 + (items[i]?.map fun a => F.usage (f a)).getD 0).sum := by
      rw [List.map_map]
      exact (sum_range fun i a ha => by rw [ha]; rfl).symm
    change (Check.references file (F.check file) p).Uses () (Usage.bytes _ + List.sum _)
    rw [total, ← List.length_map f]
    exact .references count inside fun i low => price i (by simpa using low)

theorem tables_makes_self {F : Form α} {writeOne : α → Write Nat}
    (each : ∀ a, (writeOne a).Makes (F.Fits a)) (items : List α) :
    (Write.tables writeOne items).Makes ((tables F).Fits items) := by
  have made := tables_makes (f := id) items fun a _ => each a
  rwa [List.map_id] at made

end Form

namespace Write

variable {α : Type} {width value default : Nat} {b : Builder}

def numberValue (width value default : Nat) : Option FieldValue :=
  if value = default then none else some (.number width value)

theorem numberValue_fits (size : Nat) (known : width = 1 ∨ width = 4)
    (small : value < Word.capacity width) :
    ∀ v, numberValue width value default = some v → v.Fits size := by
  intro v h
  unfold numberValue at h
  split at h
  · cases h
  · cases h
    exact ⟨known, small⟩

theorem number32_eq (n : Nat) (value default : UInt32) : number32 (Slot.ofField n) value default =
    ((numberValue 4 value.toNat default.toNat).map (⟨Slot.ofField n, ·⟩)).toList := by
  unfold number32 numberValue
  by_cases same : value = default <;> simp [same, UInt32.toNat_inj]

theorem number8_eq (n : Nat) (value default : UInt8) : number8 (Slot.ofField n) value default =
    ((numberValue 1 value.toNat default.toNat).map (⟨Slot.ofField n, ·⟩)).toList := by
  unfold number8 numberValue
  by_cases same : value = default <;> simp [same, UInt8.toNat_inj]

theorem referred_eq (n : Nat) (place : Option Nat) : referred (Slot.ofField n) place =
    ((place.map FieldValue.reference).map (⟨Slot.ofField n, ·⟩)).toList := by
  cases place <;> rfl

theorem Standing.fits {P : α → File → Nat → Prop} {o : Option α} {place : Option Nat}
    (h : Standing b P o place) : ∀ v, place.map FieldValue.reference = some v → v.Fits b.size := by
  intro v hv
  cases h with
  | none => cases hv
  | some stands =>
    cases hv
    have behind := stands.1
    rwa [← b.size_eq] at behind

end Write

namespace Usage

def field (fields n : Nat) (content : Option Usage) : Usage :=
  (if n < fields then bytes 2 else 0) + content.getD 0

def table (contents : List (Option Usage)) : Usage :=
  ⟨6 + (4 + 2 * extent contents), 1⟩ + (contents.mapIdx (field (extent contents))).sum

def number (width value default : Nat) : Option Usage :=
  if value = default then none else some (bytes width)

def reference {α : Type} (F : Form α) (o : Option α) : Option Usage :=
  o.map fun a => bytes 4 + F.usage a

end Usage

variable {α : Type} {file : File} {t : Check.Table} {fields n : Nat}

namespace File.FieldIs

theorem number {width value default : Nat}
    (h : file.FieldIs t fields n (Write.numberValue width value default)) :
    file.number? t.view (Slot.ofField n) width default = some value ∧
      (Check.field file t (Slot.ofField n) (Check.scalar file width)).Uses ()
        (Usage.field fields n (Usage.number width value default)) := by
  obtain ⟨found, place, walked, here⟩ := h
  unfold Write.numberValue at here
  unfold Usage.number
  by_cases same : value = default
  · rw [if_pos same] at here ⊢
    cases here
    refine ⟨by simp [File.number?, File.field?, place, same], ?_⟩
    rw [Usage.field, Option.getD_none, add_zero]
    exact .field_absent walked
  · rw [if_neg same] at here ⊢
    cases here with
    | some word =>
      have read := word.read
      refine ⟨by simp [File.number?, File.field?, place, read], ?_⟩
      exact .field walked (.scalar word.aligned word.inside)

theorem referred {F : Form α} {o : Option α} {place : Option Nat}
    (h : file.FieldIs t fields n (place.map .reference))
    (there : Option.Rel (fun a p => F.Fits a file (file.size - p)) o place) :
    file.referred? t.view (Slot.ofField n) (F.read file) = some o ∧
      (Check.referred file t (Slot.ofField n) (F.check file)).Uses ()
        (Usage.field fields n (Usage.reference F o)) := by
  obtain ⟨found, entry, walked, here⟩ := h
  cases there with
  | none =>
    cases here
    refine ⟨by simp [File.referred?, File.field?, entry], ?_⟩
    rw [Usage.field, Usage.reference, Option.map_none, Option.getD_none, add_zero]
    exact .field_absent walked
  | some fits =>
    cases here with
    | some points =>
      have target := points.target?
      have read := fits.1
      refine ⟨by simp [File.referred?, File.field?, entry, target, read], ?_⟩
      exact .field walked (.points points fits.2)

end File.FieldIs

theorem File.HasTable.priced {values : List (Option Write.FieldValue)} {position : Nat}
    (h : file.HasTable values position) (contents : List (Option Usage))
    (same : values.map Option.isSome = contents.map Option.isSome) :
    ∃ t : Check.Table, file.table? position = some t.view ∧
      (Check.table file position).Uses t ⟨6 + (4 + 2 * extent contents), 1⟩ ∧
      ∀ n, file.FieldIs t (extent contents) n (values[n]?.join) := by
  rw [← extent_congr same]
  exact h

end LiteModel.Container
