import LiteModel.Export
import LiteModel.Proofs.Export.Index
import LiteModel.Proofs.Export.Lowering
import LiteModel.Proofs.Export.Verification

/-! What a container says of the graph that it was exported from. The summary of the bytes is told
from the graph, its operations and the configuration alone: what is numbered stands where it is
used first, and each number is read as it was counted, without wrapping around. -/
namespace LiteModel

open Container Sequencing

namespace FinalizedGraph

variable (g : FinalizedGraph) (operations : List Operation)

/-- The number of a variable's data. Weights that have elements stand after the empty buffer, each
storage once; no other variable has data. -/
def bufferNumber (id : VariableId) : Nat :=
  if id ∈ operations.flatMap (·.weights) then
    match g.storage? id with
    | some storage => (g.usedStorages operations).idxOf storage + 1
    | none => 0
  else 0

def tensorNumbers (ids : List VariableId) : List Int :=
  ids.map fun id => ((g.usedVariables operations).idxOf id : Int)

end FinalizedGraph

namespace Container

structure TensorSummary.Describes (config : ExportConfig) (v : Variable) (buffer : Nat)
    (t : TensorSummary) : Prop where
  name : t.name = if config.tensorNames then some v.name else none
  shape : t.shape.map (·.toInt) = v.tensor.shape.dims.map fun d => (d.toNat : Int)
  typeCode : t.typeCode = v.tensor.elementType.code
  buffer : t.buffer.toNat = buffer

structure OperatorSummary.Describes (g : FinalizedGraph) (operations : List Operation)
    (o : Operation) (r : OperatorSummary) : Prop where
  codeIndex : r.codeIndex.toNat = (FinalizedGraph.usedKinds operations).idxOf o.kind
  kind : r.kind = some o.kind
  inputs : r.inputs.map (·.toInt) = g.tensorNumbers operations (o.inputs ++ o.weights)
  outputs : r.outputs.map (·.toInt) = g.tensorNumbers operations o.outputs
  options : Option.Rel OperatorOptions.Same r.options o.options

/-- The summary of a graph that was lowered to these operations. -/
structure Summary.Describes (g : FinalizedGraph) (config : ExportConfig)
    (operations : List Operation) (s : Summary) : Prop where
  version : s.version = 3
  description : s.description = some config.description
  operatorCodes : s.operatorCodes = (FinalizedGraph.usedKinds operations).map (·.code)
  bufferSizes : s.bufferSizes = 0 :: (g.usedStorages operations).map (·.bytes.length)
  subgraphName : s.subgraphName = some (config.subgraphName.getD g.graph.name)
  tensors : List.Forall₂ (fun id t => ∃ v, g.graph.lookup id = some v ∧
    t.Describes config v (g.bufferNumber operations id)) (g.usedVariables operations) s.tensors
  operators : List.Forall₂ (OperatorSummary.Describes g operations) operations s.operators
  inputs : s.inputs.map (·.toInt) = g.tensorNumbers operations g.graph.inputs
  outputs : s.outputs.map (·.toInt) = g.tensorNumbers operations g.graph.outputs

end Container

theorem toNat_ofNat_of_lt {n count : Nat} (h : n < count) (bound : count < Word.capacity 4) :
    (UInt32.ofNat n).toNat = n := by
  have capacity : Word.capacity 4 = UInt32.size := by decide
  exact UInt32.toNat_ofNat_of_lt' (by omega)

theorem FinalizedGraph.bufferNumber_le (g : FinalizedGraph) (operations : List Operation)
    (id : VariableId) :
    g.bufferNumber operations id ≤ (g.usedStorages operations).length + 1 := by
  unfold bufferNumber
  split
  · split
    · exact Nat.succ_le_succ List.findIdx_le_length
    · exact Nat.zero_le _
  · exact Nat.zero_le _

namespace ExportIndex

variable {g : FinalizedGraph} {operations : List Operation} {index : ExportIndex}

theorem tensorIndices_ok {ids : List VariableId} {indices : List Int32}
    (numbered : index.tensors.values = g.usedVariables operations)
    (few : index.tensors.values.length < Word.capacity 4)
    (h : index.tensorIndices ids = .ok indices) :
    indices.map (·.toInt) = g.tensorNumbers operations ids := by
  refine map_eq_of_mapM h fun id i single => ?_
  obtain ⟨n, found, small, rfl⟩ := tensorIndex_ok single
  rw [toInt_ofNat small, toNat_ofNat_of_lt (Numbering.indexOf?_lt found) few,
    Numbering.indexOf?_eq_idxOf found, numbered]

theorem bufferIndex_ok {id : VariableId} {i : UInt32}
    (stored : index.storages.values = g.usedStorages operations)
    (weights : index.weights = operations.flatMap (·.weights))
    (h : index.bufferIndex g id = .ok i) : i = UInt32.ofNat (g.bufferNumber operations id) := by
  unfold bufferIndex at h
  unfold FinalizedGraph.bufferNumber
  rw [weights] at h
  by_cases weight : id ∈ operations.flatMap (·.weights)
  · rw [if_pos (List.contains_iff_mem.2 weight), bind_ok_iff] at h
    obtain ⟨slot, looked, h⟩ := h
    have storage := BufferSlot.ofVariable_ok looked
    rw [if_pos weight, storage]
    cases slot with
    | empty =>
      cases h
      rfl
    | data s =>
      have used : s ∈ (operations.flatMap (·.weights)).filterMap g.storage? :=
        List.mem_filterMap.2 ⟨id, weight, storage⟩
      obtain ⟨n, found⟩ := Numbering.exists_indexOf? stored used
      simp only [Numbering.Table.indexOf?_of_place found, Option.map_some, Option.getD_some] at h
      cases h
      rw [Numbering.indexOf?_eq_idxOf found, stored, ← UInt32.ofNat_one, ← UInt32.ofNat_add]
      rfl
  · have other : ¬(operations.flatMap (·.weights)).contains id = true := by
      simpa using weight
    rw [if_neg other] at h
    cases h
    rw [if_neg weight]
    rfl

end ExportIndex

namespace Assembly

variable {g : FinalizedGraph} {operations : List Operation} {index : ExportIndex}
  {config : ExportConfig}

theorem dimension_ok {name : String} {d : UInt64} {i : Int32} (h : dimension name d = .ok i) :
    i.toInt = (d.toNat : Int) := by
  unfold dimension at h
  by_cases small : d.toNat ≤ ExportIndex.largestInteger
  · rw [if_pos small] at h
    cases h
    exact ExportIndex.toInt_ofNat small
  · rw [if_neg small] at h
    cases h

theorem effective_operatorCode (kind : OperatorKind) :
    (operatorCode kind).effective = kind.code := by
  cases kind <;> decide

theorem tensorEntry_describes {id : VariableId} {e : TensorEntry}
    (stored : index.storages.values = g.usedStorages operations)
    (weights : index.weights = operations.flatMap (·.weights))
    (bound : index.slots.length < Word.capacity 4) (h : tensorEntry g index config id = .ok e) :
    ∃ v, g.graph.lookup id = some v ∧
      (Summary.ofTensor e).Describes config v (g.bufferNumber operations id) := by
  obtain ⟨v, shape, buffer, known, dims, placed, rfl⟩ := tensorEntry_ok h
  refine ⟨v, known, rfl, map_eq_of_mapM dims fun _ _ => dimension_ok, rfl, ?_⟩
  rw [Summary.ofTensor, ExportIndex.bufferIndex_ok stored weights placed]
  have below := g.bufferNumber_le operations id
  have count : index.slots.length = (g.usedStorages operations).length + 1 := by
    rw [← stored]
    simp [ExportIndex.slots]
  exact UInt32.toNat_ofNat_of_lt' (Nat.lt_of_le_of_lt (count ▸ below) bound)

theorem operatorEntry_describes {o : Operation} {e : OperatorEntry}
    (kinds : index.kinds.values = FinalizedGraph.usedKinds operations)
    (numbered : index.tensors.values = g.usedVariables operations)
    (few : index.tensors.values.length < Word.capacity 4)
    (bound : index.kinds.values.length < Word.capacity 4)
    (finite : ∀ options ∈ o.options, options.IsFinite) (h : operatorEntry index o = .ok e) :
    (Summary.ofOperator (index.kinds.values.map (·.code)) e.stored).Describes g operations o := by
  obtain ⟨code, inputs, outputs, found, operands, results, rfl⟩ := operatorEntry_ok h
  have exact : (UInt32.ofNat code).toNat = code :=
    toNat_ofNat_of_lt (Numbering.indexOf?_lt found) bound
  refine ⟨?_, ?_, ExportIndex.tensorIndices_ok numbered few operands,
    ExportIndex.tensorIndices_ok numbered few results, OperatorOptions.same_known? finite⟩
  · rw [← kinds, ← Numbering.indexOf?_eq_idxOf found]
    exact exact
  · have listed := Numbering.getElem?_of_indexOf? found
    simp [Summary.ofOperator, OperatorEntry.stored, exact, listed, OperatorKind.ofCode?_code]

theorem data_getD (bytes : List UInt8) :
    (if bytes.isEmpty then none else some bytes).getD [] = bytes := by
  cases bytes <;> rfl

theorem buffers_data : (buffers index).map (fun b => b.data.getD []) =
    [] :: index.storages.values.map (·.bytes) := by
  have slots : (buffers index).map (fun b => b.data.getD []) = index.slots.map (·.bytes) := by
    rw [buffers, List.map_map]
    exact List.map_congr_left fun slot _ => data_getD slot.bytes
  rw [slots, ExportIndex.slots, List.map_cons, List.map_map]
  rfl

theorem buffers_sizes : (buffers index).map (·.size) =
    0 :: index.storages.values.map (·.bytes.length) := by
  have sizes : (buffers index).map (·.size) =
      ((buffers index).map fun b => b.data.getD []).map List.length := by
    rw [List.map_map]
    apply List.map_congr_left
    intro b _
    cases data : b.data <;> simp [Buffer.size, data]
  rw [sizes, buffers_data, List.map_cons, List.map_map]
  rfl

theorem content_describes {m : Model} {s : Subgraph} (lowered : g.lower = .ok operations)
    (built : ExportIndex.build g operations = .ok index)
    (h : content g operations index config = .ok m) (first : m.stored.subgraphs = some [s])
    (counted : m.stored.Counted) :
    (Summary.ofModel m.stored s).Describes g config operations := by
  obtain ⟨kinds, numbered, stored, weights⟩ := ExportIndex.build_ok built
  obtain ⟨made, assembled, rfl⟩ := content_ok h
  obtain ⟨tensors, operators, inputs, outputs, entries, nodes, starts, ends, rfl⟩ :=
    subgraph_ok assembled
  cases first
  have codeCount : index.kinds.values.length < Word.capacity 4 := by
    simpa [Model.stored] using counted.codes
  have slotCount : index.slots.length < Word.capacity 4 := by
    simpa [Model.stored, buffers] using counted.buffers
  have few : index.tensors.values.length < Word.capacity 4 := by
    have length := (mapM_ok_iff.1 entries).length_eq
    have tensors := counted.tensors _ (List.mem_singleton.2 rfl)
    rwa [length]
  have effective : (index.kinds.values.map operatorCode).map (·.effective) =
      index.kinds.values.map (·.code) := by
    simp [effective_operatorCode]
  refine ⟨rfl, rfl, ?_, ?_, rfl, ?_, ?_, ExportIndex.tensorIndices_ok numbered few starts,
    ExportIndex.tensorIndices_ok numbered few ends⟩
  · rw [← kinds]
    exact effective
  · rw [← stored]
    exact buffers_sizes
  · apply List.forall₂_map_right_iff.2
    rw [← numbered]
    exact forall₂_of_mapM entries fun _ _ _ => tensorEntry_describes stored weights slotCount
  · apply List.forall₂_map_right_iff.2
    apply List.forall₂_map_right_iff.2
    refine forall₂_of_mapM nodes fun o member entry made => ?_
    obtain ⟨l, -, layer⟩ := exists_of_mem_mapM lowered o member
    have described := operatorEntry_describes kinds numbered few codeCount
      (Operation.ofLayer_finite layer) made
    rwa [← effective] at described

end Assembly

theorem exists_toContainer {g : FinalizedGraph} {operations : List Operation} {index : ExportIndex}
    {config : ExportConfig} {m : Model} (lowered : g.lower = .ok operations)
    (built : ExportIndex.build g operations = .ok index)
    (made : Assembly.content g operations index config = .ok m)
    (small : m.encode.length ≤ 0x80000000) (tables : m.tableCount ≤ Usage.maxTables)
    (size : m.footprint.size ≤ Usage.maxSize) :
    ∃ e, g.toContainer config = .ok e ∧ e.bytes = m.encode := by
  have verified : verify m.encode = .ok () := by
    rcases Model.verify_encode (Assembly.content_wellFormed made) small with fine | beyond | beyond
    · exact fine
    · have := beyond.2
      omega
    · have := beyond.2
      omega
  simp [FinalizedGraph.toContainer, assemble, lowered, built, made, verified, Except.mapError, bind,
    Except.bind, pure, Except.pure]

/-- An export within the two gigabytes that a container may have is read back: it has a summary,
which describes the graph, and its buffers are an empty one and then the storages behind the
weights, byte for byte. -/
theorem toContainer_read_back {g : FinalizedGraph} {config : ExportConfig} {e : Export}
    (h : g.toContainer config = .ok e) (small : e.bytes.length ≤ 0x80000000) :
    ∃ operations s m, g.lower = .ok operations ∧ Summary.ofBytes e.bytes = .ok s ∧
      s.Describes g config operations ∧ File.root e.bytes.toArray = .ok m ∧
      (m.buffers.getD []).map (fun b => b.data.getD []) =
        [] :: (g.usedStorages operations).map (·.bytes) := by
  unfold FinalizedGraph.toContainer at h
  simp only [bind_ok_iff, mapError_ok_iff] at h
  obtain ⟨operations, lowered, index, built, bytes, assembled, _, verified, h⟩ := h
  cases h
  obtain ⟨m, made, rfl⟩ := assemble_ok assembled
  obtain ⟨-, read, -⟩ := Model.encode_read small
  obtain ⟨n, accepted⟩ := verify_ok_iff.1 verified
  obtain ⟨-, root, fine⟩ := File.accept_ok_iff.1 accepted
  -- what was accepted is read from the same bytes, and these give the content back
  have same : n = m.stored := by
    obtain ⟨_, -, root⟩ := bind_ok_iff.1 root
    rw [read] at root
    exact (Except.ok.inj root).symm
  subst same
  obtain ⟨s, assembled, parts⟩ := Assembly.content_ok made
  have first : m.stored.subgraphs = some [s.stored] := by
    rw [parts]
    rfl
  refine ⟨operations, Summary.ofModel m.stored s.stored, m.stored, lowered,
    Summary.ofBytes_ok_iff.2 ⟨_, _, _, accepted, first, rfl⟩,
    Assembly.content_describes lowered built made first (File.counted_of_content? read), root, ?_⟩
  obtain ⟨-, -, stored, -⟩ := ExportIndex.build_ok built
  rw [← stored, ← Assembly.buffers_data, parts]
  rfl

def biasedIndex : ExportIndex where
  kinds := .ofList [.add]
  storages := .ofList [.ofBytes ⟨0⟩ [0, 0, 0x80, 0x3f]]
  tensors := .ofList [⟨0⟩, ⟨1⟩, ⟨2⟩]
  weights := [⟨2⟩]

set_option maxRecDepth 4000 in
theorem toContainer_read_back_biased : ∃ e operations s m, biased.toContainer {} = .ok e ∧
    e.bytes.length = 400 ∧ biased.lower = .ok operations ∧ Summary.ofBytes e.bytes = .ok s ∧
    s.Describes biased {} operations ∧ File.root e.bytes.toArray = .ok m ∧
    (m.buffers.getD []).map (fun b => b.data.getD []) =
      [] :: (biased.usedStorages operations).map (·.bytes) := by
  have lowered : biased.lower = .ok biasedOperations := by cbv
  have built : ExportIndex.build biased biasedOperations = .ok biasedIndex := by cbv
  have price : (Assembly.content biased biasedOperations biasedIndex {}).map
      (fun m => (m.tableCount, m.footprint.size)) = .ok (9, 507) := by cbv
  have length : (Assembly.content biased biasedOperations biasedIndex {}).map
      (fun m => m.encode.length) = .ok 400 := by cbv
  cases made : Assembly.content biased biasedOperations biasedIndex {} with
  | error fault =>
    rw [made] at length
    cases length
  | ok content =>
    rw [made] at price length
    have length : content.encode.length = 400 := Except.ok.inj length
    obtain ⟨tables, size⟩ := Prod.mk.inj (Except.ok.inj price)
    obtain ⟨e, exported, bytes⟩ := exists_toContainer lowered built made (by omega)
      (by rw [tables]; decide) (by rw [size]; decide)
    rw [← bytes] at length
    obtain ⟨operations, s, m, lowered, read, described, root, data⟩ :=
      toContainer_read_back exported (by omega)
    exact ⟨e, operations, s, m, exported, length, lowered, read, described, root, data⟩

end LiteModel
