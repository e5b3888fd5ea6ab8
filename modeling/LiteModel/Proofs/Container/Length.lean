import LiteModel.Proofs.Container.Footprint

/-! How long a container gets. The walk does not count what lies between the objects: padding, and
the vtables with the distances to them. All of that is less than 56 bytes for each table, so a
container is hardly longer than the walk through it. -/
namespace LiteModel.Container

namespace Usage

/-- The most bytes of a file that the walk uses this up for. -/
def room (u : Usage) : Nat := u.size + 56 * u.tables

@[simp] theorem room_add (u v : Usage) : (u + v).room = u.room + v.room := by
  simp only [room, size_add, tables_add]
  omega

@[simp] theorem room_zero : (0 : Usage).room = 0 := rfl

@[simp] theorem room_bytes (n : Nat) : (bytes n).room = n := rfl

theorem room_sum (us : List Usage) : us.sum.room = (us.map room).sum :=
  sum_of_add room_zero room_add us

theorem sum_le_room_mapIdx {α : Type} {f : Nat → α → Usage} {g : α → Nat}
    (each : ∀ n a, g a ≤ (f n a).room) (items : List α) :
    (items.map g).sum ≤ (items.mapIdx f).sum.room := by
  induction items generalizing f with
  | nil => exact Nat.le_refl 0
  | cons a rest ih =>
    rw [List.map_cons, List.sum_cons, List.mapIdx_cons, List.sum_cons, room_add]
    exact Nat.add_le_add (each 0 a) (ih fun n => each (n + 1))

theorem le_room_table (contents : List (Option Usage)) :
    56 + (contents.map fun c => (c.getD 0).room).sum ≤ (table contents).room := by
  have fields := sum_le_room_mapIdx (f := field (extent contents))
    (g := fun c => (c.getD 0).room) (fun n c => by simp [field]) contents
  rw [table, room_add]
  simp only [room] at fields ⊢
  omega

theorem room_reference {α : Type} (F : Form α) (o : Option α) :
    ((reference F o).getD 0).room = (o.map fun a => 4 + (F.usage a).room).getD 0 := by
  cases o <;> simp [reference]

theorem room_tables {α : Type} (F : Form α) (items : List α) : (F.tables.usage items).room =
    4 + 4 * items.length + (items.map fun a => 4 + (F.usage a).room).sum := by
  simp only [Form.tables, room_add, room_bytes, room_sum, List.map_map, Function.comp_def]
  omega

end Usage

namespace Write

variable {α β : Type} {m n : Nat}

/-- Whatever was written before, this adds at most `n` bytes. -/
def Grows (w : Write α) (n : Nat) : Prop := ∀ b, (w.run b).2.size ≤ b.size + n

namespace Grows

theorem mono {w : Write α} (h : w.Grows m) (le : m ≤ n) : w.Grows n :=
  fun b => Nat.le_trans (h b) (Nat.add_le_add_left le b.size)

theorem pure (a : α) : Grows (Pure.pure a) 0 := fun b => Nat.le_refl b.size

theorem bind {w : Write α} {k : α → Write β} (hw : w.Grows m)
    (hk : ∀ b, (k (w.run b).1).Grows n) : Grows (w >>= k) (m + n) := by
  intro b
  have first := hw b
  have rest := hk b (w.run b).2
  rw [StateT.run_bind]
  change ((k (w.run b).1).run (w.run b).2).2.size ≤ _
  omega

theorem map {w : Write α} (f : α → β) (hw : w.Grows n) : Grows (f <$> w) n := by
  rw [map_eq_pure_bind]
  exact hw.bind fun _ => pure _

theorem mapM {writeOne : α → Write β} {bound : α → Nat} {items : List α}
    (each : ∀ a ∈ items, (writeOne a).Grows (bound a)) :
    Grows (items.mapM writeOne) (items.map bound).sum := by
  induction items with
  | nil => exact pure []
  | cons a rest ih =>
    rw [List.mapM_cons, List.map_cons, List.sum_cons]
    have others := ih fun c member => each c (List.mem_cons_of_mem a member)
    exact (each a List.mem_cons_self).bind fun _ => others.bind fun _ => pure _

theorem option {writeOne : α → Write β} {bound : α → Nat} (each : ∀ a, (writeOne a).Grows (bound a))
    (o : Option α) : Grows (o.mapM writeOne) ((o.map bound).getD 0) := by
  cases o with
  | none => exact pure none
  | some a =>
    rw [Option.mapM_some]
    exact (each a).map some

end Grows

theorem here_grows : here.Grows 0 := fun b => Nat.le_refl b.size

theorem align_grows (length : Nat) {alignment : Nat} (positive : 0 < alignment) :
    (align length alignment).Grows (alignment - 1) := by
  intro b
  have padding := gap_lt b.size length positive
  rw [align_run, Builder.size_pushed_zeros]
  omega

theorem counted_grows (count : Nat) (content : List UInt8) :
    (counted count content).Grows (content.length + 7) := by
  intro b
  have padding := gap_lt b.size content.length (show 0 < 4 by omega)
  simp only [counted_run, Builder.pushed_size, List.length_append, Word.length_bytes,
    List.length_replicate]
  omega

theorem references_grows (places : List Nat) :
    (references places).Grows (4 * places.length + 7) := by
  intro b
  have bound := counted_grows places.length
    ((distances (gap b.size (4 * places.length) 4 + b.size) places).flatMap (Word.bytes 4)) b
  rwa [length_distances, ← references_run] at bound

structure Compact (fields : List Field) (n : Nat) : Prop where
  few : fields.length ≤ n
  low : ∀ f ∈ fields, f.slot ≤ 12
  narrow : ∀ f ∈ fields, ∀ width value, f.value = .number width value → 0 < width ∧ width ≤ 4

namespace Compact

variable {xs ys : List Field} {slot : Nat}

theorem nil : Compact [] 1 := ⟨Nat.zero_le 1, by simp, by simp⟩

theorem number (low : slot ≤ 12) {width : Nat} (narrow : 0 < width ∧ width ≤ 4) (value : Nat) :
    Compact [⟨slot, .number width value⟩] 1 :=
  ⟨Nat.le_refl 1, by simpa using low, by simp; omega⟩

theorem number32 (low : slot ≤ 12) (value default : UInt32) :
    Compact (Write.number32 slot value default) 1 := by
  unfold Write.number32
  split
  · exact nil
  · exact number low (by decide) _

theorem number8 (low : slot ≤ 12) (value default : UInt8) :
    Compact (Write.number8 slot value default) 1 := by
  unfold Write.number8
  split
  · exact nil
  · exact number low (by decide) _

theorem float32 (low : slot ≤ 12) (bits : UInt32) : Compact (Write.float32 slot bits) 1 := by
  unfold Write.float32
  split
  · exact nil
  · exact number low (by decide) _

theorem referred (low : slot ≤ 12) (place : Option Nat) :
    Compact (Write.referred slot place) 1 := by
  cases place with
  | none => exact nil
  | some place =>
    exact ⟨Nat.le_refl 1, by simpa [Write.referred] using low, by simp [Write.referred]⟩

theorem append (hx : Compact xs m) (hy : Compact ys n) : Compact (xs ++ ys) (m + n) where
  few := by
    have := hx.few
    have := hy.few
    rw [List.length_append]
    omega
  low f member := (List.mem_append.1 member).elim (hx.low f) (hy.low f)
  narrow f member := (List.mem_append.1 member).elim (hx.narrow f) (hy.narrow f)

end Compact

theorem field_grows {fields : List Field} {f : Field} (h : Compact fields n) (member : f ∈ fields) :
    (field f).Grows 7 := by
  intro b
  obtain ⟨slot, value⟩ := f
  cases value with
  | number width value =>
    obtain ⟨positive, narrow⟩ := h.narrow _ member _ _ rfl
    change ((word width value).run b).2.size ≤ _
    rw [word_run]
    exact (size_pushed_word value positive narrow).2
  | reference place =>
    change ((reference place).run b).2.size ≤ _
    rw [reference_run]
    exact (size_pushed_word _ (by decide) (Nat.le_refl 4)).2

theorem slots_mapM_field (fields : List Field) (b : Builder) :
    ((fields.mapM field).run b).1.map Prod.fst = fields.map Field.slot := by
  induction fields generalizing b with
  | nil => rfl
  | cons f rest ih =>
    have slot : ((field f).run b).1.1 = f.slot := by
      obtain ⟨slot, value⟩ := f
      cases value <;> rfl
    rw [List.mapM_cons, List.map_cons, ← slot, ← ih ((field f).run b).2]
    rfl

theorem foldl_slots_le {placed : List (Nat × Nat)} {size : Nat} (small : size ≤ 14)
    (low : ∀ p ∈ placed, p.1 ≤ 12) : placed.foldl (fun n f => max n (f.1 + 2)) size ≤ 14 := by
  induction placed generalizing size with
  | nil => exact small
  | cons p rest ih =>
    have first := low p List.mem_cons_self
    rw [List.foldl_cons]
    exact ih (by omega) fun q member => low q (List.mem_cons_of_mem p member)

theorem length_vtable_le (place tail : Nat) {placed : List (Nat × Nat)}
    (low : ∀ p ∈ placed, p.1 ≤ 12) : (vtable place tail placed).length ≤ 14 := by
  have size := foldl_slots_le (show 4 ≤ 14 by omega) low
  rw [vtable, length_words, List.length_cons, List.length_cons, List.length_map, List.length_range]
  omega

theorem link_grows (place : Nat) (layout : List UInt8) :
    (link place layout).Grows (layout.length + 4) := by
  intro b
  cases known : b.vtables.lookup layout with
  | some earlier =>
    rw [link_run_known known, Builder.pushed_size, Word.length_bytes]
    omega
  | none =>
    rw [link_run_new known]
    simp only [noted, Builder.pushed_size, List.length_append, Word.length_bytes]
    omega

/-- Five fields of at most seven bytes, three zeros, and the vtable with the distance to it. -/
theorem table_grows {fields : List Field} (h : Compact fields n) (few : n ≤ 5) :
    (table fields).Grows 56 := by
  have count := h.few
  have written : Grows (fields.mapM field) (fields.map fun _ => 7).sum :=
    .mapM fun f member => field_grows h member
  have low : ∀ b, ∀ p ∈ ((fields.mapM field).run b).1, p.1 ≤ 12 := by
    intro b p member
    have slot := List.mem_map_of_mem (f := Prod.fst) member
    rw [slots_mapM_field] at slot
    obtain ⟨f, there, same⟩ := List.mem_map.1 slot
    exact same ▸ h.low f there
  have linked : ∀ place tail b, (link place (vtable place tail
      ((fields.mapM field).run b).1)).Grows 18 := fun place tail b =>
    (link_grows _ _).mono (Nat.add_le_add_right (length_vtable_le place tail (low b)) 4)
  have padded : (align 4 4).Grows 3 := align_grows 4 (by decide)
  rw [table_eq]
  refine Grows.mono (here_grows.bind fun _ => written.bind fun b => padded.bind fun _ =>
    here_grows.bind fun _ => linked _ _ b) ?_
  simp only [List.map_const', List.sum_replicate_nat]
  omega

theorem integers_grows (values : List Int32) :
    (integers values).Grows (4 + (Form.integers.usage values).room) := by
  rw [integers, words_eq]
  refine (counted_grows _ _).mono ?_
  rw [length_words, List.length_map, Form.integers, Usage.room_bytes]
  omega

theorem bytes_grows (data : List UInt8) :
    (bytes data).Grows (4 + (Form.bytes.usage data).room) := by
  rw [bytes_eq]
  refine (counted_grows _ _).mono ?_
  rw [Form.bytes, Usage.room_bytes]
  omega

theorem text_grows (s : String) : (text s).Grows (4 + (Form.text.usage s).room) := by
  rw [text_eq]
  refine (counted_grows _ _).mono ?_
  rw [List.length_append, Form.text, Usage.room_bytes, List.length_singleton]
  omega

theorem length_run_mapM {writeOne : α → Write β} (items : List α) (b : Builder) :
    ((items.mapM writeOne).run b).1.length = items.length := by
  induction items generalizing b with
  | nil => rfl
  | cons a rest ih =>
    rw [List.mapM_cons, List.length_cons, ← ih ((writeOne a).run b).2]
    rfl

theorem tables_grows {writeOne : α → Write Nat} {bound : α → Nat}
    (each : ∀ a, (writeOne a).Grows (bound a)) (items : List α) :
    (tables writeOne items).Grows
      (4 + (4 + 4 * items.length + (items.map fun a => 4 + bound a).sum)) := by
  have members : Grows (items.mapM writeOne) (items.map fun a => 4 + bound a).sum :=
    .mapM fun a _ => (each a).mono (Nat.le_add_left _ 4)
  have referred : ∀ b, (references ((items.mapM writeOne).run b).1).Grows
      (4 * items.length + 7) := by
    intro b
    have places : ((items.mapM writeOne).run b).1.length = items.length := length_run_mapM items b
    rw [← places]
    exact references_grows _
  exact (members.bind referred).mono (by omega)

theorem buffer_grows (b : Buffer) : (buffer b).Grows (Form.buffer.usage b).room := by
  refine Grows.mono ((Grows.option bytes_grows b.data).bind fun _ =>
    table_grows (.referred (by decide) _) (by decide)) (Nat.le_trans ?_ (Usage.le_room_table _))
  simp [Usage.room_reference]
  omega

theorem operatorCode_grows (c : OperatorCode) :
    (operatorCode c).Grows (Form.operatorCode.usage c).room := by
  refine Grows.mono (table_grows (((Compact.number8 (by decide) _ _).append
    (.number32 (by decide) _ _)).append (.number32 (by decide) _ _)) (by decide))
    (Nat.le_trans ?_ (Usage.le_room_table _))
  omega

theorem tensor_grows (t : TensorEntry) : (tensor t).Grows (Form.tensor.usage t).room := by
  have fields : ∀ shape name, Compact (referred Slot.Tensor.shape shape ++
      number8 Slot.Tensor.typeCode t.typeCode.toUInt8 0 ++ number32 Slot.Tensor.buffer t.buffer 0 ++
      referred Slot.Tensor.name name) 4 := fun _ _ =>
    (((Compact.referred (by decide) _).append (.number8 (by decide) _ _)).append
      (.number32 (by decide) _ _)).append (.referred (by decide) _)
  refine Grows.mono ((Grows.option integers_grows t.shape).bind fun _ =>
    (Grows.option text_grows t.name).bind fun _ => table_grows (fields _ _) (by decide))
    (Nat.le_trans ?_ (Usage.le_room_table _))
  simp [Usage.room_reference]
  omega

theorem options_grows (o : Options) :
    (options o).Grows ((Form.optionsUsage o.stored).getD 0).room := by
  cases o with
  | fullyConnected activation =>
    refine ((table_grows (.number8 (by decide) _ _) (by decide)).map some).mono ?_
    have room := Usage.le_room_table [Usage.number 1 activation.toUInt8.toNat 0, none, none]
    simp only [Options.stored, Form.optionsUsage, Form.activation, Option.getD_some,
      Usage.room_add, Usage.room_bytes]
    omega
  | softmax bits =>
    refine ((table_grows (.float32 (by decide) _) (by decide)).map some).mono ?_
    have room := Usage.le_room_table [Usage.number 4 (Options.storedBeta bits).toNat 0]
    simp only [Options.stored, Form.optionsUsage, Form.beta, Option.getD_some, Usage.room_add,
      Usage.room_bytes]
    omega
  | other tag => exact .pure none

theorem operator_grows (o : OperatorEntry) :
    (operator o).Grows (Form.operator.usage o.stored).room := by
  have fields : ∀ inputs outputs tag place, Compact (
      number32 Slot.Operator.codeIndex o.codeIndex 0 ++ referred Slot.Operator.inputs inputs ++
      referred Slot.Operator.outputs outputs ++ number8 Slot.Operator.optionsTag tag 0 ++
      referred Slot.Operator.options place) 5 := fun _ _ _ _ =>
    ((((Compact.number32 (by decide) _ _).append (.referred (by decide) _)).append
      (.referred (by decide) _)).append (.number8 (by decide) _ _)).append (.referred (by decide) _)
  refine Grows.mono ((Grows.option integers_grows o.inputs).bind fun _ =>
    (Grows.option integers_grows o.outputs).bind fun _ => (options_grows o.options).bind fun _ =>
      table_grows (fields _ _ _ _) (by decide)) (Nat.le_trans ?_ (Usage.le_room_table _))
  simp [Usage.room_reference, OperatorEntry.stored]
  omega

theorem subgraph_grows (s : Subgraph) :
    (subgraph s).Grows (Form.subgraph.usage s.stored).room := by
  have fields : ∀ tensors inputs outputs operators name, Compact (
      referred Slot.Subgraph.tensors tensors ++ referred Slot.Subgraph.inputs inputs ++
      referred Slot.Subgraph.outputs outputs ++ referred Slot.Subgraph.operators operators ++
      referred Slot.Subgraph.name name) 5 := fun _ _ _ _ _ =>
    ((((Compact.referred (by decide) _).append (.referred (by decide) _)).append
      (.referred (by decide) _)).append (.referred (by decide) _)).append (.referred (by decide) _)
  refine Grows.mono ((Grows.option (tables_grows tensor_grows) s.tensors).bind fun _ =>
    (Grows.option (tables_grows operator_grows) s.operators).bind fun _ =>
    (Grows.option integers_grows s.inputs).bind fun _ =>
    (Grows.option integers_grows s.outputs).bind fun _ =>
    (Grows.option text_grows s.name).bind fun _ => table_grows (fields _ _ _ _ _) (by decide))
    (Nat.le_trans ?_ (Usage.le_room_table _))
  simp [Usage.room_reference, Usage.room_tables, Subgraph.stored, Function.comp_def]
  omega

theorem model_grows (m : Model) : (model m).Grows (Form.model.usage m.stored).room := by
  have fields : ∀ operatorCodes subgraphs description buffers, Compact (
      number32 Slot.Model.version m.version 0 ++ referred Slot.Model.operatorCodes operatorCodes ++
      referred Slot.Model.subgraphs subgraphs ++ referred Slot.Model.description description ++
      referred Slot.Model.buffers buffers) 5 := fun _ _ _ _ =>
    ((((Compact.number32 (by decide) _ _).append (.referred (by decide) _)).append
      (.referred (by decide) _)).append (.referred (by decide) _)).append (.referred (by decide) _)
  refine Grows.mono ((Grows.option (tables_grows buffer_grows) m.buffers).bind fun _ =>
    (Grows.option (tables_grows operatorCode_grows) m.operatorCodes).bind fun _ =>
    (Grows.option (tables_grows subgraph_grows) m.subgraphs).bind fun _ =>
    (Grows.option text_grows m.description).bind fun _ => table_grows (fields _ _ _ _) (by decide))
    (Nat.le_trans ?_ (Usage.le_room_table _))
  simp [Usage.room_reference, Usage.room_tables, Model.stored, Function.comp_def]
  omega

theorem length_fileOf_le (identifier : List UInt8) {root : Write Nat} (h : root.Grows n) :
    (fileOf identifier root).length ≤ n + identifier.length + 7 := by
  have grown := h {}
  have empty : ({} : Builder).size = 0 := rfl
  have padding := gap_lt (root.run {}).2.size (4 + identifier.length) (show 0 < 4 by omega)
  rw [fileOf_eq, reference_run, gap_beforeRoot, ← Builder.size_eq]
  simp only [beforeRoot, Builder.pushed_size, List.length_append, Word.length_bytes,
    List.length_replicate]
  omega

end Write

/-- A container is no longer than what the walk goes through, but for 56 bytes a table. -/
theorem Model.length_encode_le (m : Model) :
    m.encode.length ≤ m.footprint.size + 56 * m.tableCount + 7 := by
  have bound := Write.length_fileOf_le identifier (Write.model_grows m)
  have marked : identifier.length = 4 := rfl
  have tables : (Form.model.usage m.stored).tables = m.tableCount := by
    rw [← m.tables_footprint, Model.footprint, Usage.tables_add, Usage.tables_bytes, Nat.zero_add]
  rw [← Model.encode, Usage.room, tables] at bound
  rw [Model.footprint, Usage.size_add, Usage.size_bytes]
  omega

end LiteModel.Container
