import LiteModel.Proofs.Tensor
import LiteModel.Proofs.Export.Success

/-! The data of an export, for graphs whose tensors were made by constructions in a row. A storage
of such a tensor is as long as its shape says, so a constant of a container has exactly the bytes
that it needs, whichever graph the index is of, and the storages that a container leaves out are
empty. -/
namespace LiteModel

open Container Sequencing

/-- Every tensor of the arena is one that these constructions make, or a copy of it. -/
def Graph.MadeBy (g : Graph) (steps : List Tensor.Construction) : Prop :=
  ∀ v ∈ g.arena, v.tensor ∈ (({} : Tensor.Session).run steps).tensors

namespace Graph

variable {g : Graph} {steps : List Tensor.Construction} {id : VariableId} {v : Variable}

theorem mem_of_lookup (found : g.lookup id = some v) : v ∈ g.arena :=
  Array.mem_of_getElem? found

theorem Accepted.byteCount_lt (h : g.Accepted) (found : g.lookup id = some v) :
    v.tensor.shape.byteCount v.tensor.elementType < UInt64.size := by
  have sized := h.sized v (Array.mem_toList_iff.2 (mem_of_lookup found))
  rw [← Shape.isSome_byteSize?_iff, Option.isSome_iff_ne_none]
  intro none
  simp [isOversized, none] at sized

theorem MadeBy.length_bytes (made : g.MadeBy steps) (accepted : g.Accepted)
    (found : g.lookup id = some v) {s : Storage} (stored : v.tensor.storage = some s) :
    s.bytes.length = v.tensor.shape.byteCount v.tensor.elementType :=
  (Tensor.Session.sound_empty.run steps).sized v.tensor (made v (mem_of_lookup found)) s stored
    (accepted.byteCount_lt found)

theorem MadeBy.bytes_ne_nil_iff (made : g.MadeBy steps) (accepted : g.Accepted)
    (found : g.lookup id = some v) {s : Storage} (stored : v.tensor.storage = some s) :
    s.bytes ≠ [] ↔ v.tensor.isInitialized = true := by
  have positive := v.tensor.elementType.byteSize_pos
  rw [← List.length_pos_iff, made.length_bytes accepted found stored, Shape.byteCount,
    Nat.mul_pos_iff_of_pos_right positive, Nat.pos_iff_ne_zero, ne_eq, Shape.count_eq_zero_iff]
  simp [Tensor.isInitialized]

/-- Storages of one id are those of one tensor, also in different graphs. -/
theorem MadeBy.tensor_eq {g' : Graph} {id' : VariableId} {v' : Variable} {s s' : Storage}
    (made : g.MadeBy steps) (made' : g'.MadeBy steps) (found : g.lookup id = some v)
    (found' : g'.lookup id' = some v') (stored : v.tensor.storage = some s)
    (stored' : v'.tensor.storage = some s') (same : s.id = s'.id) : v.tensor = v'.tensor :=
  (Tensor.Session.sound_empty.run steps).owned _ (made v (mem_of_lookup found)) _
    (made' v' (mem_of_lookup found')) s s' stored stored' same

end Graph

/-- Each tensor with data has the bytes that its dimensions and its element type ask for, and at
least one; and no buffer is empty but the first. -/
structure Container.Model.ConstantsFit (m : Model) : Prop where
  exact : ∀ s ∈ m.subgraphs.getD [], ∀ t ∈ s.tensors.getD [], t.buffer ≠ 0 →
    ∃ type b, ElementType.ofCode? t.typeCode = some type ∧
      (m.buffers.getD [])[t.buffer.toNat]? = some b ∧
      (b.size : Int) = ((t.shape.getD []).map (·.toInt)).prod * type.byteSize ∧ 1 ≤ b.size
  filled : ∀ j b, 1 ≤ j → (m.buffers.getD [])[j]? = some b → 1 ≤ b.size

namespace ExportIndex

variable {g : FinalizedGraph} {index : ExportIndex}

theorem bufferIndex_ne_zero {id : VariableId} {i : UInt32} (h : index.bufferIndex g id = .ok i)
    (some : i ≠ 0) : ∃ s n, g.storage? id = .some s ∧
      index.storages.toNumbering.indexOf? s = .some n ∧ i = UInt32.ofNat (n + 1) := by
  unfold bufferIndex at h
  split at h
  · rw [bind_ok_iff] at h
    obtain ⟨slot, looked, h⟩ := h
    have storage := BufferSlot.ofVariable_ok looked
    cases slot with
    | empty =>
      cases h
      exact absurd rfl some
    | data s =>
      cases h
      rw [Numbering.Table.indexOf?_eq] at some ⊢
      cases found : index.storages.toNumbering.indexOf? s with
      | none => simp [found] at some
      | some n => exact ⟨s, n, storage, found, (UInt32.ofNat_add n 1).symm⟩
  · cases h
    exact absurd rfl some

theorem mem_storages_of_build {operations : List Operation}
    (built : ExportIndex.build g operations = .ok index) {s : Storage}
    (member : s ∈ index.storages.values) : ∃ id, g.storage? id = some s := by
  obtain ⟨-, -, stored, -⟩ := build_ok built
  rw [stored, FinalizedGraph.usedStorages] at member
  obtain ⟨id, -, storage⟩ := List.mem_filterMap.1 (Numbering.mem_of_mem_eraseDups member)
  exact ⟨id, storage⟩

theorem getElem?_storages {g' : FinalizedGraph} {operations' : List Operation}
    {steps : List Tensor.Construction} (made : g.graph.MadeBy steps)
    (made' : g'.graph.MadeBy steps) (built : ExportIndex.build g' operations' = .ok index)
    {id : VariableId} {s : Storage} {i : Nat} (storage : g.storage? id = some s)
    (place : index.storages.toNumbering.indexOf? s = some i) :
    index.storages.values[i]? = some s := by
  obtain ⟨below, same, -⟩ := List.findIdx?_eq_some_iff_getElem.1 place
  obtain ⟨id', storage'⟩ := mem_storages_of_build built (List.getElem_mem below)
  obtain ⟨v, found, stored, -⟩ := FinalizedGraph.storage?_eq_some_iff.1 storage
  obtain ⟨v', found', stored', -⟩ := FinalizedGraph.storage?_eq_some_iff.1 storage'
  have tensor : v.tensor = v'.tensor :=
    made.tensor_eq made' found found' stored stored' ((Storage.beq_iff _ _).1 same).symm
  rw [← tensor, stored] at stored'
  rw [List.getElem?_eq_getElem below, ← stored']

end ExportIndex

namespace Assembly

variable {g g' : FinalizedGraph} {index : ExportIndex} {config : ExportConfig}
  {operations operations' : List Operation} {steps : List Tensor.Construction}

theorem size_buffers {j : Nat} {b : Buffer} (h : (buffers index)[j]? = some b) :
    (0 :: index.storages.values.map (·.bytes.length))[j]? = some b.size := by
  rw [← buffers_sizes, List.getElem?_map, h, Option.map_some]

theorem toInt_prod_dimensions {name : String} {dims : List UInt64} {shape : List Int32}
    (h : dims.mapM (dimension name) = .ok shape) :
    (shape.map (·.toInt)).prod = ((dims.map UInt64.toNat).prod : Nat) := by
  have exact : shape.map (·.toInt) = dims.map fun d => (d.toNat : Int) :=
    map_eq_of_mapM h fun _ _ => dimension_ok
  rw [exact, Nat.cast_list_prod, List.map_map]
  rfl

theorem tensorEntry_exact (made : g.graph.MadeBy steps) (made' : g'.graph.MadeBy steps)
    (built : ExportIndex.build g' operations' = .ok index) {id : VariableId} {e : TensorEntry}
    (bound : index.slots.length < Word.capacity 4) (h : tensorEntry g index config id = .ok e)
    (constant : e.buffer ≠ 0) :
    ∃ type b, ElementType.ofCode? e.typeCode = some type ∧
      (buffers index)[e.buffer.toNat]? = some b ∧
      (b.size : Int) = ((e.shape.getD []).map (·.toInt)).prod * type.byteSize ∧ 1 ≤ b.size := by
  obtain ⟨v, shape, number, found, dims, placed, rfl⟩ := tensorEntry_ok h
  obtain ⟨s, i, storage, place, rfl⟩ := ExportIndex.bufferIndex_ne_zero placed constant
  have exact : (UInt32.ofNat (i + 1)).toNat = i + 1 := by
    have below := Numbering.indexOf?_lt place
    refine toNat_ofNat_of_lt ?_ bound
    simpa [ExportIndex.slots] using below
  obtain ⟨u, again, stored, filled⟩ := FinalizedGraph.storage?_eq_some_iff.1 storage
  cases found.symm.trans again
  have length := made.length_bytes g.isAccepted found stored
  have filled : 1 ≤ s.bytes.length :=
    List.length_pos_iff.2 ((made.bytes_ne_nil_iff g.isAccepted found stored).2 filled)
  have numbered := ExportIndex.getElem?_storages made made' built storage place
  have sizes : ((buffers index).map (·.size))[i + 1]? = some s.bytes.length := by
    rw [buffers_sizes, List.getElem?_cons_succ, List.getElem?_map, numbered]
    rfl
  rw [List.getElem?_map] at sizes
  obtain ⟨b, listed, size⟩ := Option.map_eq_some_iff.1 sizes
  refine ⟨v.tensor.elementType, b, ElementType.ofCode?_code _, ?_, ?_, ?_⟩
  · rw [← listed, exact]
  · rw [size, length, Option.getD_some, toInt_prod_dimensions dims, Shape.byteCount, Shape.count,
      Nat.cast_mul]
  · rwa [size]

theorem buffers_filled (made' : g'.graph.MadeBy steps)
    (built : ExportIndex.build g' operations' = .ok index) {j : Nat} {b : Buffer} (first : 1 ≤ j)
    (listed : (buffers index)[j]? = some b) : 1 ≤ b.size := by
  have size := size_buffers listed
  obtain ⟨i, rfl⟩ : ∃ i, j = i + 1 := ⟨j - 1, (Nat.sub_add_cancel first).symm⟩
  rw [List.getElem?_cons_succ, List.getElem?_map, Option.map_eq_some_iff] at size
  obtain ⟨s, there, size⟩ := size
  obtain ⟨id, storage⟩ := ExportIndex.mem_storages_of_build built (List.mem_of_getElem? there)
  obtain ⟨v, found, stored, filled⟩ := FinalizedGraph.storage?_eq_some_iff.1 storage
  rw [← size]
  exact List.length_pos_iff.2 ((made'.bytes_ne_nil_iff g'.isAccepted found stored).2 filled)

end Assembly

/-- Whatever finalized graph an index was built from, and with whatever operations, the container
that is assembled with it gives each constant its data, if the tensors of both graphs come from one
run of constructions. -/
theorem assemble_constantsFit {g g' : FinalizedGraph} {operations operations' : List Operation}
    {index : ExportIndex} {config : ExportConfig} {bytes : List UInt8}
    {steps : List Tensor.Construction} (made : g.graph.MadeBy steps)
    (made' : g'.graph.MadeBy steps) (built : ExportIndex.build g' operations' = .ok index)
    (h : assemble g operations index config = .ok bytes) (small : bytes.length ≤ 0x80000000) :
    ∃ m, File.content? bytes.toArray = some m ∧ m.ConstantsFit := by
  obtain ⟨m, assembled, rfl⟩ := assemble_ok h
  obtain ⟨-, read, -⟩ := Model.encode_read small
  have slots := (File.counted_of_content? read).buffers
  obtain ⟨s, graph, parts⟩ := Assembly.content_ok assembled
  obtain ⟨tensors, operators, inputs, outputs, entries, -, -, -, rfl⟩ := Assembly.subgraph_ok graph
  have buffers : m.stored.buffers.getD [] = Assembly.buffers index := by rw [parts]; rfl
  have bound : index.slots.length < Word.capacity 4 := by
    rw [buffers, Assembly.buffers, List.length_map] at slots
    exact slots
  refine ⟨m.stored, read, fun s member t tensor constant => ?_, fun j b first listed => ?_⟩
  · have one : m.stored.subgraphs.getD [] =
        [⟨some tensors, some inputs, some outputs, some (operators.map OperatorEntry.stored),
          some (config.subgraphName.getD g.graph.name)⟩] := by
      rw [parts]
      rfl
    rw [one, List.mem_singleton] at member
    subst member
    obtain ⟨id, -, entry⟩ := exists_of_mem_mapM entries t tensor
    rw [buffers]
    exact Assembly.tensorEntry_exact made made' built bound entry constant
  · rw [buffers] at listed
    exact Assembly.buffers_filled made' built first listed

/-- Two bytes with a copy of them, a tensor without elements, and one that stays without data. -/
def pool : List Tensor.Construction :=
  [.bytes (.vector 2) .u8 [7, 9], .zeros (.vector 0) .f32, .placeholder (.vector 1) .f32, .clone 0,
    .zeros (.vector 1) .f32]

def pooled : FinalizedGraph where
  graph := {
    name := "pooled"
    arena := #[⟨"x", .placeholder (.vector 1) .f32⟩, ⟨"y", .placeholder (.vector 1) .f32⟩,
      ⟨"u", ⟨.vector 2, .u8, some (.ofBytes ⟨0⟩ [7, 9])⟩⟩,
      ⟨"v", ⟨.vector 2, .u8, some (.ofBytes ⟨0⟩ [7, 9])⟩⟩,
      ⟨"w", .zeros ⟨1⟩ (.vector 0) .f32⟩]
    layers := [⟨"sum", "add", [⟨0⟩], [⟨1⟩], [⟨2⟩, ⟨3⟩, ⟨4⟩], .empty⟩]
    inputs := [⟨0⟩]
    outputs := [⟨1⟩] }
  accepted := ⟨_, by cbv⟩

def repooled : FinalizedGraph where
  graph := { pooled.graph with
    arena := pooled.graph.arena.set 2 ⟨"t", .zeros ⟨2⟩ (.vector 1) .f32⟩ }
  accepted := ⟨_, by cbv⟩

def pooledOperations : List Operation := [⟨"sum", .add, [⟨0⟩], [⟨1⟩], [⟨2⟩, ⟨3⟩, ⟨4⟩], none⟩]

def repooledIndex : ExportIndex where
  kinds := .ofList [.add]
  storages := .ofList [.zeros ⟨2⟩ 4, .ofBytes ⟨0⟩ [7, 9]]
  tensors := .ofList [⟨0⟩, ⟨1⟩, ⟨2⟩, ⟨3⟩, ⟨4⟩]
  weights := [⟨2⟩, ⟨3⟩, ⟨4⟩]

theorem tensors_pool : (({} : Tensor.Session).run pool).tensors =
    #[⟨.vector 2, .u8, some (.ofBytes ⟨0⟩ [7, 9])⟩, .zeros ⟨1⟩ (.vector 0) .f32,
      .placeholder (.vector 1) .f32, ⟨.vector 2, .u8, some (.ofBytes ⟨0⟩ [7, 9])⟩,
      .zeros ⟨2⟩ (.vector 1) .f32] := by
  cbv

theorem pooled_madeBy : pooled.graph.MadeBy pool := by
  simp [Graph.MadeBy, tensors_pool, pooled]

theorem repooled_madeBy : repooled.graph.MadeBy pool := by
  simp [Graph.MadeBy, tensors_pool, repooled, pooled]

set_option maxRecDepth 4000 in
theorem assemble_constantsFit_pooled : pooled.graph.MadeBy pool ∧ repooled.graph.MadeBy pool ∧
    ExportIndex.build repooled pooledOperations = .ok repooledIndex ∧
    ∃ bytes, assemble pooled pooledOperations repooledIndex {} = .ok bytes ∧ bytes.length = 496 ∧
      ∃ m, File.content? bytes.toArray = some m ∧ m.ConstantsFit := by
  have built : ExportIndex.build repooled pooledOperations = .ok repooledIndex := by cbv
  have length : (assemble pooled pooledOperations repooledIndex {}).map List.length =
      .ok 496 := by cbv
  refine ⟨pooled_madeBy, repooled_madeBy, built, ?_⟩
  cases assembled : assemble pooled pooledOperations repooledIndex {} with
  | error fault =>
    rw [assembled] at length
    cases length
  | ok bytes =>
    rw [assembled] at length
    have length : bytes.length = 496 := Except.ok.inj length
    exact ⟨bytes, rfl, length,
      assemble_constantsFit pooled_madeBy repooled_madeBy built assembled (by omega)⟩

theorem Word.total_filter {α : Type} {keep : α → Bool} {size : α → Nat} {items : List α}
    (empty : ∀ a ∈ items, keep a = false → size a = 0) :
    total ((items.filter keep).map size) = total (items.map size) := by
  induction items with
  | nil => rfl
  | cons a rest ih =>
    obtain ⟨now, later⟩ := List.forall_mem_cons.1 empty
    have others := ih later
    simp only [total] at others ⊢
    cases kept : keep a with
    | true => simp only [List.filter_cons, kept, if_true, List.map_cons, List.foldr_cons, others]
    | false =>
      simp only [List.filter_cons, kept, Bool.false_eq_true, if_false, List.map_cons,
        List.foldr_cons, others, now kept, Nat.zero_add]

theorem Graph.weightBytes_eq (g : Graph) : g.weightBytes =
    Word.total ((g.weights.filterMap g.storage?).eraseDups.map (·.size)) := by
  have distinct := Numbering.foldl_collect .empty (g.weights.filterMap g.storage?)
  rw [Numbering.values_ofList] at distinct
  rw [← distinct]
  rfl

namespace FinalizedGraph

variable {g : FinalizedGraph} {operations : List Operation} {steps : List Tensor.Construction}

theorem filterMap_storage? (made : g.graph.MadeBy steps) :
    g.graph.weights.filterMap g.storage? =
      (g.graph.weights.filterMap g.graph.storage?).filter fun s => !s.bytes.isEmpty := by
  rw [List.filter_filterMap]
  refine List.filterMap_congr fun id weight => ?_
  have used := Graph.weights_subset weight
  have found := lookup_variableAt used
  rw [storage?_eq used]
  cases stored : g.graph.storage? id with
  | none => simp
  | some s =>
    have own : (g.variableAt id).tensor.storage = some s := by
      rwa [Graph.storage?, found, Option.bind_some] at stored
    have bytes := made.bytes_ne_nil_iff g.isAccepted found own
    cases filled : (g.variableAt id).tensor.isInitialized with
    | true => simp [Option.filter, bytes.2 filled]
    | false =>
      have none : s.bytes = [] := by simpa [filled] using bytes
      simp [Option.filter, none]

/-- The two ways to count the bytes of the weights agree. -/
theorem weightBytes_eq (made : g.graph.MadeBy steps) (lowered : g.lower = .ok operations) :
    g.weightBytes operations = g.graph.weightBytes := by
  have alike : ∀ a ∈ g.graph.weights.filterMap g.graph.storage?,
      ∀ b ∈ g.graph.weights.filterMap g.graph.storage?, (a == b) = true →
        (!a.bytes.isEmpty) = !b.bytes.isEmpty := by
    intro a ha b hb same
    obtain ⟨id, -, stored⟩ := List.mem_filterMap.1 ha
    obtain ⟨id', -, stored'⟩ := List.mem_filterMap.1 hb
    obtain ⟨v, found, own⟩ := Option.bind_eq_some_iff.1 stored
    obtain ⟨v', found', own'⟩ := Option.bind_eq_some_iff.1 stored'
    have tensor := made.tensor_eq made found found' own own' ((Storage.beq_iff _ _).1 same)
    rw [tensor, own'] at own
    cases own
    rfl
  rw [weightBytes, usedStorages, weights_of_lower lowered, filterMap_storage? made,
    ← Numbering.filter_eraseDups alike, Graph.weightBytes_eq]
  refine Word.total_filter fun s _ dropped => ?_
  rw [Bool.not_eq_false', List.isEmpty_iff] at dropped
  rw [Storage.size_eq_length, dropped, List.length_nil]

end FinalizedGraph

/-- An export has as many bytes of buffers as its graph counts for its weights. -/
theorem toContainer_weightBytes {g : FinalizedGraph} {config : ExportConfig} {e : Export}
    {steps : List Tensor.Construction} (made : g.graph.MadeBy steps)
    (h : g.toContainer config = .ok e) (small : e.bytes.length ≤ 0x80000000) :
    ∃ s, Summary.ofBytes e.bytes = .ok s ∧ g.graph.weightBytes = s.totalBufferBytes := by
  obtain ⟨operations, lowered, -, read, described, -⟩ := FinalizedGraph.read_of_toContainer h small
  refine ⟨_, read, ?_⟩
  rw [← FinalizedGraph.weightBytes_eq made lowered, Summary.totalBufferBytes,
    described.bufferSizes, Word.total, List.foldr_cons, Nat.zero_add]
  simp only [FinalizedGraph.weightBytes, Storage.size_eq_length, Word.total]

set_option maxRecDepth 4000 in
theorem toContainer_weightBytes_pooled : pooled.graph.MadeBy pool ∧
    ∃ e, pooled.toContainer {} = .ok e ∧ e.bytes.length = 480 ∧
      ∃ s, Summary.ofBytes e.bytes = .ok s ∧ pooled.graph.weightBytes = s.totalBufferBytes := by
  have lowered : pooled.lower = .ok pooledOperations := by cbv
  have length : (pooled.image {} pooledOperations).encode.length = 480 := by cbv
  have tables : (pooled.image {} pooledOperations).tableCount = 11 := by cbv
  have size : (pooled.image {} pooledOperations).footprint.size = 626 := by cbv
  obtain ⟨e, exported, length⟩ := FinalizedGraph.exists_export_of_sizes lowered (by cbv) (by decide)
    length tables size (by decide)
  exact ⟨pooled_madeBy, e, exported, length,
    toContainer_weightBytes pooled_madeBy exported (by omega)⟩

end LiteModel
