import LiteModel.Container.Slot
import LiteModel.Proofs.Container.Builder

/-! Tables as they are written and as they are found. The content of a table is a list of what its
fields hold, field by field, with gaps. Its vtable goes as far as the last field that is there. The
vtable may stand in front of the table or have been written with an earlier table of the same
layout; the distance back leads to it either way. -/
namespace LiteModel.Container

/-- The number of fields up to the last one that is there. -/
def extent {α : Type} : List (Option α) → Nat
  | [] => 0
  | v :: rest => if v.isSome || extent rest != 0 then extent rest + 1 else 0

theorem extent_cons {α : Type} (v : Option α) (rest : List (Option α)) :
    extent (v :: rest) = if v.isSome || extent rest != 0 then extent rest + 1 else 0 := rfl

theorem extent_congr {α β : Type} {values : List (Option α)} {others : List (Option β)}
    (same : values.map Option.isSome = others.map Option.isSome) :
    extent values = extent others := by
  induction values generalizing others with
  | nil =>
    cases others with
    | nil => rfl
    | cons o rest => cases same
  | cons v rest ih =>
    cases others with
    | nil => cases same
    | cons o others =>
      obtain ⟨first, more⟩ := List.cons.inj same
      rw [extent_cons, extent_cons, ih more, first]

theorem extent_le_length {α : Type} (values : List (Option α)) : extent values ≤ values.length := by
  induction values with
  | nil => exact Nat.le_refl 0
  | cons v rest ih =>
    rw [extent_cons, List.length_cons]
    split <;> omega

theorem lt_extent {α : Type} {values : List (Option α)} {n : Nat} {v : α}
    (h : values[n]? = some (some v)) : n < extent values := by
  induction values generalizing n with
  | nil => cases h
  | cons first rest ih =>
    rw [extent_cons]
    cases n with
    | zero =>
      rw [List.getElem?_cons_zero, Option.some.injEq] at h
      simp [h]
    | succ n =>
      have below := ih (by simpa using h)
      have later : (extent rest != 0) = true := by rw [bne_iff_ne]; omega
      rw [later, Bool.or_true, if_pos rfl]
      omega

namespace Write

def present : (n : Nat) → List (Option FieldValue) → List Field
  | _, [] => []
  | n, v :: rest => (v.map (⟨Slot.ofField n, ·⟩)).toList ++ present (n + 1) rest

theorem length_present_le (n : Nat) (values : List (Option FieldValue)) :
    (present n values).length ≤ values.length := by
  induction values generalizing n with
  | nil => exact Nat.le_refl 0
  | cons v rest ih =>
    have := ih (n + 1)
    cases v <;> simp [present] <;> omega

theorem mem_present {n : Nat} {values : List (Option FieldValue)} {f : Field}
    (h : f ∈ present n values) : some f.value ∈ values ∧ Slot.ofField n ≤ f.slot := by
  induction values generalizing n with
  | nil => cases h
  | cons v rest ih =>
    rcases List.mem_append.1 h with h | h
    · obtain ⟨value, rfl, rfl⟩ := Option.map_eq_some_iff.1 (Option.mem_toList.1 h)
      exact ⟨List.mem_cons_self, Nat.le_refl _⟩
    · obtain ⟨member, later⟩ := ih h
      refine ⟨List.mem_cons_of_mem v member, ?_⟩
      simp only [Slot.ofField] at later ⊢
      omega

theorem foldl_present (n size : Nat) (values : List (Option FieldValue)) :
    (present n values).foldl (fun m f => max m (f.slot + 2)) size =
      if extent values = 0 then size else max size (4 + 2 * (n + extent values)) := by
  induction values generalizing n size with
  | nil => rfl
  | cons v rest ih =>
    rw [present, List.foldl_append, ih, extent_cons]
    cases v with
    | none =>
      by_cases later : extent rest = 0
      · simp [later]
      · simp [later]
        omega
    | some value =>
      by_cases later : extent rest = 0
      · simp [later, Slot.ofField]
        omega
      · simp [later, Slot.ofField]
        omega

variable {R : Field → Nat × Nat → Prop} {placed : List (Nat × Nat)}

theorem lookup_before {values : List (Option FieldValue)} {n k : Nat}
    (h : List.Forall₂ (fun f r => r.1 = f.slot ∧ R f r) (present n values) placed)
    (before : k < n) :
    placed.lookup (Slot.ofField k) = none := by
  rw [List.lookup_eq_none_iff]
  intro r hr
  obtain ⟨i, inside, rfl⟩ := List.mem_iff_getElem.1 hr
  have pair := h.get (h.length_eq ▸ inside) inside
  have later := (mem_present (List.getElem_mem (h.length_eq ▸ inside))).2
  simp only [List.get_eq_getElem] at pair
  simp only [Slot.ofField] at later ⊢
  simp only [bne_iff_ne, ne_eq]
  omega

theorem lookup_placed {values : List (Option FieldValue)} {n : Nat}
    (h : List.Forall₂ (fun f r => r.1 = f.slot ∧ R f r) (present n values) placed) (i : Nat) :
    Option.Rel (fun v p => R ⟨Slot.ofField (n + i), v⟩ (Slot.ofField (n + i), p))
      (values[i]?.join) (placed.lookup (Slot.ofField (n + i))) := by
  induction values generalizing n i placed with
  | nil =>
    cases h
    exact .none
  | cons v rest ih =>
    cases v with
    | none =>
      have h : List.Forall₂ (fun f r => r.1 = f.slot ∧ R f r) (present (n + 1) rest) placed := h
      cases i with
      | zero =>
        rw [Nat.add_zero, lookup_before h (Nat.lt_succ_self n)]
        exact .none
      | succ i =>
        have found := ih h i
        rwa [Nat.add_assoc, Nat.add_comm 1] at found
    | some value =>
      obtain ⟨⟨slot, p⟩, others, ⟨same, here⟩, more, rfl⟩ := List.forall₂_cons_left_iff.1 h
      have same : slot = Slot.ofField n := same
      subst same
      cases i with
      | zero =>
        rw [Nat.add_zero, List.lookup_cons_self]
        exact .some here
      | succ i =>
        have found := ih more i
        have apart : (Slot.ofField (n + (i + 1)) == Slot.ofField n) = false := by
          simp only [Slot.ofField, beq_eq_false_iff_ne, ne_eq]
          omega
        rw [List.lookup_cons, apart]
        rwa [Nat.add_assoc, Nat.add_comm 1] at found

def FieldValue.At (file : File) : FieldValue → Nat → Prop
  | number width value, p => file.HasWord width p value
  | reference place, p => file.Points p (file.size - place)

/-- A value that can be written when so many bytes are. -/
def FieldValue.Fits (size : Nat) : FieldValue → Prop
  | number width value => (width = 1 ∨ width = 4) ∧ value < Word.capacity width
  | reference place => place ≤ size

variable {b : Builder}

theorem word_stands {width value : Nat} (known : width = 1 ∨ width = 4)
    (small : value < Word.capacity width) :
    Stands ((word width value).run b).2.bytes ((word width value).run b).2.size
      fun file p => file.HasWord width p value := by
  have positive : 0 < width := by omega
  have aligned := gap_add_mod b.size width positive
  rw [word_run]
  refine (b.stands_pushed _ _).mono fun front finished _ ⟨start, held⟩ => held.hasWord ?_ small
  have whole := finished.aligned
  rw [Word.length_bytes, List.length_replicate] at start
  rcases known with rfl | rfl
  · exact Nat.mod_one _
  · omega

theorem reference_stands {place : Nat} (behind : place ≤ b.size) :
    Stands ((reference place).run b).2.bytes ((reference place).run b).2.size
      fun file p => file.Points p (file.size - place) := by
  have aligned := gap_add_mod b.size 4 (show 0 < 4 by omega)
  rw [reference_run]
  refine (b.stands_pushed _ _).mono fun front finished _ ⟨start, held⟩ => ?_
  have whole := finished.aligned
  have small := finished.bounded
  rw [Word.length_bytes, List.length_replicate] at start
  refine ⟨_, held.hasWord ?_ ?_, ?_⟩
  · omega
  · simp only [Word.capacity]
    omega
  · omega

theorem size_pushed_word {width : Nat} (value : Nat) (positive : 0 < width) (narrow : width ≤ 4) :
    b.size ≤ (b.pushed (Word.bytes width value ++
      List.replicate (gap b.size width width) 0)).size ∧
    (b.pushed (Word.bytes width value ++
      List.replicate (gap b.size width width) 0)).size ≤ b.size + 7 := by
  have padding := gap_lt b.size width positive
  rw [Builder.pushed_size, List.length_append, Word.length_bytes, List.length_replicate]
  omega

theorem From.field {f : Field} (fits : f.value.Fits b.size) (sound : b.Sound) :
    From b (field f) fun r b' => r.1 = f.slot ∧ b.size ≤ r.2 ∧ r.2 = b'.size ∧
      b'.size ≤ b.size + 7 ∧ Stands b'.bytes r.2 f.value.At := by
  obtain ⟨slot, value⟩ := f
  cases value with
  | number width value =>
    obtain ⟨known, small⟩ := fits
    have run : (Write.field ⟨slot, .number width value⟩).run b =
      ((slot, ((word width value).run b).2.size), ((word width value).run b).2) := rfl
    have stands := word_stands (b := b) known small
    rw [word_run] at run stands
    obtain ⟨after, near⟩ := size_pushed_word (b := b) value (show 0 < width by omega) (by omega)
    exact .of_pushed run sound ⟨rfl, after, rfl, near, stands⟩
  | reference place =>
    have run : (Write.field ⟨slot, .reference place⟩).run b =
      ((slot, ((reference place).run b).2.size), ((reference place).run b).2) := rfl
    have stands := reference_stands (b := b) fits
    rw [reference_run] at run stands
    obtain ⟨after, near⟩ := size_pushed_word (b := b) (gap b.size 4 4 + b.size + 4 - place)
      (show 0 < 4 by omega) (Nat.le_refl 4)
    exact .of_pushed run sound ⟨rfl, after, rfl, near, stands⟩

theorem From.fields {fields : List Field} (fits : ∀ f ∈ fields, f.value.Fits b.size)
    (sound : b.Sound) :
    From b (fields.mapM Write.field) fun placed b' =>
      b.size ≤ b'.size ∧ b'.size ≤ b.size + 7 * fields.length ∧
      List.Forall₂ (fun f r => r.1 = f.slot ∧ b.size ≤ r.2 ∧ r.2 ≤ b'.size ∧
        Stands b'.bytes r.2 f.value.At) fields placed := by
  induction fields generalizing b with
  | nil => exact .pure sound ⟨Nat.le_refl _, Nat.le_refl _, .nil⟩
  | cons f rest ih =>
    rw [List.mapM_cons]
    refine (From.field (fits f List.mem_cons_self) sound).bind fun r b₁ sound₁ _ first => ?_
    obtain ⟨slot, after, here, near, stands⟩ := first
    have fits₁ : ∀ g ∈ rest, g.value.Fits b₁.size := by
      intro g hg
      have room := fits g (List.mem_cons_of_mem f hg)
      cases hv : g.value with
      | number width value => rwa [hv] at room
      | reference place =>
        rw [hv] at room
        have room : place ≤ b.size := room
        change place ≤ b₁.size
        omega
    refine (ih fits₁ sound₁).bind fun placed b₂ sound₂ grown others => .pure sound₂ ?_
    obtain ⟨after₂, near₂, all⟩ := others
    refine ⟨by omega, by rw [List.length_cons]; omega, .cons ⟨slot, after, by omega, ?_⟩ ?_⟩
    · exact stands.extend grown
    · exact all.imp fun g q ⟨slot, after, before, stands⟩ => ⟨slot, by omega, before, stands⟩

def link (place : Nat) (layout : List UInt8) : Write Nat := do
  match (← get).vtables.lookup layout with
  | some earlier =>
    push (Word.bytes 4 ((earlier : Int) - place).toInt32.toUInt32.toNat)
  | none =>
    push (Word.bytes 4 layout.length)
    push layout
    let vtablePlace ← here
    modify fun b => { b with vtables := (layout, vtablePlace) :: b.vtables }
  return place

theorem table_eq (fields : List Field) : table fields = (do
    let tail ← here
    let placed ← fields.mapM field
    align 4 4
    let size ← here
    link (size + 4) (vtable (size + 4) tail placed)) := rfl

end Write

def File.HasVtable (file : File) (layout : List UInt8) (position : Nat) : Prop :=
  ∃ back start, file.HasWord 4 position back ∧
    (position : Int) - (UInt32.ofNat back).toInt32.toInt = (start : Nat) ∧
    start % 2 = 0 ∧ file.Holds start layout

theorem toInt_distance {x : Int} (low : -0x80000000 ≤ x) (high : x < 0x80000000) :
    (UInt32.ofNat x.toInt32.toUInt32.toNat).toInt32.toInt = x := by
  rw [UInt32.ofNat_toNat, Int32.toInt32_toUInt32]
  exact Int32.toInt_ofInt_of_le low high

theorem toInt_length {n : Nat} (high : n < 0x80000000) : (UInt32.ofNat n).toInt32.toInt = n := by
  rw [UInt32.toInt32_ofNat', Int32.toInt_ofNat_of_lt high]

namespace Write

variable {b : Builder}

theorem link_run_known {place earlier : Nat} {layout : List UInt8}
    (known : b.vtables.lookup layout = some earlier) :
    (link place layout).run b =
      (place, b.pushed (Word.bytes 4 ((earlier : Int) - place).toInt32.toUInt32.toNat)) := by
  unfold link
  rw [StateT.run_bind, StateT.run_get, pure_bind, known]
  rfl

def noted (b : Builder) (layout : List UInt8) : Builder :=
  { b.pushed (layout ++ Word.bytes 4 layout.length) with
    vtables := (layout, (b.pushed (layout ++ Word.bytes 4 layout.length)).size) :: b.vtables }

theorem link_run_new {place : Nat} {layout : List UInt8} (new : b.vtables.lookup layout = none) :
    (link place layout).run b = (place, noted b layout) := by
  unfold link noted
  rw [StateT.run_bind, StateT.run_get, pure_bind, new, ← Builder.pushed_pushed]
  rfl

theorem mem_of_lookup {entries : List (List UInt8 × Nat)} {layout : List UInt8} {place : Nat}
    (h : entries.lookup layout = some place) : (layout, place) ∈ entries := by
  obtain ⟨before, after, rfl, -⟩ := List.lookup_eq_some_iff.1 h
  exact List.mem_append_right _ List.mem_cons_self

theorem suffix_noted {layout : List UInt8} : b.bytes <:+ (noted b layout).bytes :=
  List.suffix_append _ _

theorem stands_noted (layout : List UInt8) :
    Stands (noted b layout).bytes (noted b layout).size fun file p => file.Holds p layout :=
  (b.stands_pushed layout (Word.bytes 4 layout.length)).mono fun _ _ _ ⟨_, held⟩ => held

theorem sound_noted {layout : List UInt8} (aligned : b.size % 4 = 0)
    (even : layout.length % 2 = 0) (sound : b.Sound) : (noted b layout).Sound := by
  intro e he
  rcases List.mem_cons.1 he with rfl | he
  · refine ⟨?_, stands_noted layout⟩
    simp only [Builder.pushed_size, List.length_append, Word.length_bytes]
    omega
  · exact ⟨(sound e he).1, (sound e he).2.extend suffix_noted⟩

theorem From.link {layout : List UInt8} (aligned : b.size % 4 = 0) (even : layout.length % 2 = 0)
    (sound : b.Sound) :
    From b (link (b.size + 4) layout) fun place b' =>
      place = b.size + 4 ∧ Stands b'.bytes place fun file p => file.HasVtable layout p := by
  cases known : b.vtables.lookup layout with
  | some earlier =>
    -- the vtable lies behind the table, at most two gigabytes away, so the distance is negative
    obtain ⟨evenPlace, vtable⟩ := sound _ (mem_of_lookup known)
    refine .of_pushed (link_run_known known) sound ⟨rfl, ?_⟩
    generalize hdistance : ((earlier : Int) - ((b.size + 4 : Nat) : Int)) = distance
    have word := b.stands_pushed (Word.bytes 4 distance.toInt32.toUInt32.toNat) []
    rw [List.append_nil, Builder.pushed_size, Word.length_bytes, Nat.add_comm] at word
    refine word.mono fun front finished _ holds => ?_
    obtain ⟨start, held⟩ := holds
    have whole := finished.aligned
    have small := finished.bounded
    have back := (vtable.extend Builder.suffix_pushed).2 front finished
    have behind := vtable.1
    rw [← b.size_eq] at behind
    rw [List.length_nil] at start
    refine ⟨_, _, held.hasWord ?_ (UInt32.toNat_lt _), ?_, ?_, back⟩
    · omega
    · rw [toInt_distance (by omega) (by omega)]
      omega
    · omega
  | none =>
    -- the vtable is put right in front of the table, as far away as it is long
    rw [From, link_run_new known]
    refine ⟨sound_noted aligned even sound, suffix_noted, rfl, ?_⟩
    have word := b.stands_pushed (Word.bytes 4 layout.length) []
    rw [List.append_nil, Builder.pushed_size, Word.length_bytes, Nat.add_comm] at word
    have grown : (b.pushed (Word.bytes 4 layout.length)).bytes <:+ (noted b layout).bytes := by
      refine ⟨layout, ?_⟩
      simp only [noted, Builder.pushed_bytes, List.append_assoc]
    refine (word.extend grown).mono fun front finished _ holds => ?_
    obtain ⟨start, held⟩ := holds
    have whole := finished.aligned
    have small := finished.bounded
    have vtable := (stands_noted (b := b) layout).2 front finished
    have length : (noted b layout).size = layout.length + 4 + b.size := by
      simp only [noted, Builder.pushed_size, List.length_append, Word.length_bytes]
    have bound := vtable.le_size
    have room : (noted b layout).size ≤ (front ++ (noted b layout).bytes).toArray.size := by
      rw [List.size_toArray, List.length_append, (noted b layout).size_eq]
      omega
    rw [List.length_nil] at start
    refine ⟨_, _, held.hasWord ?_ ?_, ?_, ?_, vtable⟩
    · omega
    · simp only [Word.capacity]
      omega
    · rw [toInt_length (by omega)]
      omega
    · omega

theorem vtable_eq {R : Field → Nat × Nat → Prop} {values : List (Option FieldValue)}
    {placed : List (Nat × Nat)} (place tail : Nat)
    (h : List.Forall₂ (fun f r => r.1 = f.slot ∧ R f r) (present 0 values) placed) :
    vtable place tail placed = ((4 + 2 * extent values) :: (place - tail) ::
      (List.range (extent values)).map fun n =>
        ((placed.lookup (Slot.ofField n)).map (place - ·)).getD 0).flatMap (Word.bytes 2) := by
  have slots : ∀ size, placed.foldl (fun n f => max n (f.1 + 2)) size =
      (present 0 values).foldl (fun n f => max n (f.slot + 2)) size := by
    generalize present 0 values = fields at h
    induction h with
    | nil => exact fun _ => rfl
    | cons first _ ih =>
      intro size
      rw [List.foldl_cons, List.foldl_cons, first.1]
      exact ih _
  have size : placed.foldl (fun n f => max n (f.1 + 2)) 4 = 4 + 2 * extent values := by
    rw [slots, foldl_present]
    split <;> omega
  have count : (4 + 2 * extent values - 4) / 2 = extent values := by omega
  unfold vtable
  simp only [size, count]
  rfl

end Write

/-- What is found when field `n` of a table is looked up, in a vtable of so many fields: what the
content says, at the price of an entry if the vtable goes that far. -/
def File.FieldIs (file : File) (t : Check.Table) (fields n : Nat) (v : Option Write.FieldValue) :
    Prop :=
  ∃ found, file.place? t.view (Slot.ofField n) = some found ∧
    (Check.place file t (Slot.ofField n)).Uses found (if n < fields then Usage.bytes 2 else 0) ∧
    Option.Rel (fun v q => v.At file q) v found

def File.HasTable (file : File) (values : List (Option Write.FieldValue)) (position : Nat) : Prop :=
  ∃ t : Check.Table, file.table? position = some t.view ∧
    (Check.table file position).Uses t ⟨6 + (4 + 2 * extent values), 1⟩ ∧
    ∀ n, file.FieldIs t (extent values) n (values[n]?.join)

variable {file : File} {position : Nat}

theorem File.HasVtable.table {size : Nat} {rest : List Nat}
    (h : file.HasVtable ((size :: rest).flatMap (Word.bytes 2)) position) (even : size % 2 = 0)
    (length : size = 2 * (rest.length + 1)) (small : size < 0x10000) :
    ∃ t : Check.Table, t.position = position ∧ t.vtableSize = size ∧
      file.table? position = some t.view ∧ (Check.table file position).Uses t ⟨6 + size, 1⟩ ∧
      ∀ n v, rest[n + 1]? = some v → v < 0x10000 → Slot.ofField n < size ∧
        file.HasWord 2 (t.vtable + Slot.ofField n) v := by
  obtain ⟨back, start, distance, there, aligned, held⟩ := h
  have first : file.HasWord 2 start size := held.left.hasWord aligned small
  have inside := held.le_size
  rw [length_words, List.length_cons] at inside
  refine ⟨⟨position, start, size⟩, rfl, rfl, ?_, ?_, fun n v hn fits => ?_⟩
  · have readSize : file.word? 2 ((position : Int) - (UInt32.ofNat back).toInt32.toInt).toNat =
        some size := by
      rw [there]
      exact first.read
    have found := File.table?_eq_some distance.read (by omega) readSize
    rwa [there] at found
  · exact .table distance there first (by omega) (by omega)
  · have within := (List.getElem?_eq_some_iff.1 hn).1
    have entry := held.entry (show (size :: rest)[n + 2]? = some v from hn)
    have same : start + 2 * (n + 2) = start + Slot.ofField n := by
      simp only [Slot.ofField]
      omega
    rw [same] at entry
    refine ⟨?_, entry.hasWord ?_ fits⟩
    · simp only [Slot.ofField]
      omega
    · simp only [Slot.ofField]
      omega

theorem File.fieldIs_of_entry {t : Check.Table} {fields n k : Nat} {v : Option Write.FieldValue}
    (low : n < fields) (within : Slot.ofField n < t.vtableSize)
    (entry : file.HasWord 2 (t.vtable + Slot.ofField n) k)
    (rel : Option.Rel (fun v q => v.At file q) v (if k = 0 then none else some (t.position + k))) :
    file.FieldIs t fields n v := by
  refine ⟨_, ?_, ?_, rel⟩
  · simp [File.place?, Check.Table.view, within, entry.read]
  · rw [if_pos low]
    exact .place within entry

theorem File.fieldIs_beyond {t : Check.Table} {fields n : Nat} (high : fields ≤ n)
    (beyond : t.vtableSize ≤ Slot.ofField n) : file.FieldIs t fields n none := by
  refine ⟨none, ?_, ?_, .none⟩
  · simp [File.place?, Check.Table.view, Nat.not_lt.2 beyond]
  · rw [if_neg (Nat.not_lt.2 high)]
    exact .place_beyond beyond

theorem File.HasVtable.hasTable {values : List (Option Write.FieldValue)}
    {placed : List (Nat × Nat)} {place tail : Nat} (h : file.HasVtable (Write.vtable place tail placed) position)
    (few : values.length ≤ 5) (start : position + place = file.size) (short : place ≤ tail + 42)
    (fields : List.Forall₂ (fun f r => r.1 = f.slot ∧ tail ≤ r.2 ∧ r.2 + 4 ≤ place ∧
      f.value.At file (file.size - r.2)) (Write.present 0 values) placed) :
    file.HasTable values position := by
  have bound := extent_le_length values
  rw [Write.vtable_eq place tail fields] at h
  obtain ⟨t, here, size, found, walked, entries⟩ := h.table (by omega) (by simp; omega) (by omega)
  refine ⟨t, found, walked, fun n => ?_⟩
  by_cases low : n < extent values
  · have lookup := Write.lookup_placed fields n
    have entry := entries n (((placed.lookup (Slot.ofField n)).map (place - ·)).getD 0)
      (by simp [low])
    rw [Nat.zero_add] at lookup
    generalize values[n]?.join = v at lookup ⊢
    generalize placed.lookup (Slot.ofField n) = there at lookup entry
    cases lookup with
    | none =>
      obtain ⟨within, word⟩ := entry (by simp)
      rw [← size] at within
      exact File.fieldIs_of_entry low within word .none
    | @some v p stands =>
      obtain ⟨behind, before, stands⟩ := stands
      obtain ⟨within, word⟩ := entry (by simp; omega)
      have offset : ((some p).map (place - ·)).getD 0 = place - p := rfl
      rw [offset] at word
      rw [← size] at within
      -- no field stands where its table does, so its entry is not the zero of an absent one
      have target : t.position + (place - p) = file.size - p := by omega
      refine File.fieldIs_of_entry low within word ?_
      rw [if_neg (by omega), target]
      exact .some stands
  · have absent : values[n]?.join = none := by
      cases hv : values[n]? with
      | none => rfl
      | some v =>
        cases v with
        | none => rfl
        | some v => exact absurd (lt_extent hv) low
    rw [absent]
    refine File.fieldIs_beyond (Nat.le_of_not_lt low) ?_
    rw [size, Slot.ofField]
    omega

namespace Write

variable {b : Builder}

theorem From.here (sound : b.Sound) : From b here fun n b' => n = b.size ∧ b = b' :=
  ⟨sound, List.suffix_refl _, rfl, rfl⟩

theorem From.align (length alignment : Nat) (sound : b.Sound) :
    From b (align length alignment) fun _ b' => b'.size = gap b.size length alignment + b.size := by
  refine .of_pushed (align_run length alignment) sound ?_
  rw [Builder.pushed_size, List.length_replicate]

/-- A table of at most five fields is left behind with what its fields hold. -/
theorem From.table {values : List (Option FieldValue)} (few : values.length ≤ 5)
    (fits : ∀ o ∈ values, ∀ v, o = some v → v.Fits b.size) (sound : b.Sound) :
    From b (table (present 0 values)) fun place b' =>
      Stands b'.bytes place fun file p => file.HasTable values p := by
  have count := length_present_le 0 values
  have room : ∀ f ∈ present 0 values, f.value.Fits b.size := fun f hf =>
    fits _ (mem_present hf).1 _ rfl
  rw [table_eq]
  refine (From.here sound).bind fun tail _ _ _ ⟨htail, same⟩ => ?_
  subst htail same
  refine (From.fields room sound).bind fun placed b₁ sound₁ _ ⟨_, near, fields⟩ => ?_
  have padding := gap_lt b₁.size 4 (show 0 < 4 by omega)
  have aligned := gap_add_mod b₁.size 4 (show 0 < 4 by omega)
  refine (From.align 4 4 sound₁).bind fun _ b₂ sound₂ grown₂ size₂ => ?_
  refine (From.here sound₂).bind fun size _ _ _ ⟨hsize, same⟩ => ?_
  subst hsize same
  have even : (vtable (b₂.size + 4) b.size placed).length % 2 = 0 := by
    rw [vtable_eq _ _ fields, length_words]
    omega
  refine (From.link (by omega) even sound₂).mono fun place b₃ grown₃ ⟨hplace, linked⟩ => ?_
  refine linked.mono fun front finished inFile vtable => ?_
  refine vtable.hasTable few (by omega) (by omega) ?_
  refine fields.imp fun f r ⟨slot, after, before, stands⟩ => ⟨slot, after, by omega, ?_⟩
  exact ((stands.extend grown₂).extend grown₃).2 front finished

end Write

end LiteModel.Container
