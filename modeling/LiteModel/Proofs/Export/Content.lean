import LiteModel.Export.Assembly
import LiteModel.Proofs.Numbering.Table
import LiteModel.Proofs.Sequencing
import LiteModel.Proofs.Container.Acceptance

/-! What the assembled content is when there is one, part by part, and that its references are in
order whatever the graph, the operations and the index are: an index is written only after it was
found in the numbering that the table beside it is made from. -/
namespace LiteModel

open Container Sequencing

theorem toNat_ofNat_le (n : Nat) : (UInt32.ofNat n).toNat ≤ n := by
  rw [UInt32.toNat_ofNat']
  exact Nat.mod_le _ _

namespace ExportIndex

variable {index : ExportIndex}

theorem tensorIndex_ok {id : VariableId} {i : Int32} (h : index.tensorIndex id = .ok i) :
    ∃ n, index.tensors.toNumbering.indexOf? id = some n ∧
      (UInt32.ofNat n).toNat ≤ largestInteger ∧ i = Int32.ofNat (UInt32.ofNat n).toNat := by
  unfold tensorIndex at h
  rw [bind_ok_iff] at h
  obtain ⟨k, found, h⟩ := h
  obtain ⟨n, place, rfl⟩ := Numbering.Table.exists_place_of_indexOf found
  by_cases small : (UInt32.ofNat n).toNat ≤ largestInteger
  · rw [if_pos small] at h
    cases h
    exact ⟨n, place, small, rfl⟩
  · rw [if_neg small] at h
    cases h

theorem toInt_ofNat {n : Nat} (small : n ≤ largestInteger) : (Int32.ofNat n).toInt = n :=
  Int32.toInt_ofNat_of_lt (by unfold largestInteger at small; omega)

theorem tensorIndices_inTensors {ids : List VariableId} {indices : List Int32}
    (h : index.tensorIndices ids = .ok indices) :
    InTensors index.tensors.values.length indices := by
  intro i member
  obtain ⟨id, -, index⟩ := exists_of_mem_mapM h i member
  obtain ⟨n, found, small, rfl⟩ := tensorIndex_ok index
  have below := Numbering.indexOf?_lt found
  have word := toNat_ofNat_le n
  rw [toInt_ofNat small]
  exact .inr ⟨by omega, by omega⟩

theorem bufferIndex_lt {g : FinalizedGraph} {id : VariableId} {i : UInt32}
    (h : index.bufferIndex g id = .ok i) : i.toNat < index.slots.length := by
  have count : index.slots.length = index.storages.values.length + 1 := by simp [slots]
  unfold bufferIndex at h
  split at h
  · rw [bind_ok_iff] at h
    obtain ⟨slot, -, h⟩ := h
    cases slot with
    | empty =>
      cases h
      exact count ▸ Nat.zero_lt_succ _
    | data storage =>
      cases h
      rw [Numbering.Table.indexOf?_eq]
      cases found : index.storages.toNumbering.indexOf? storage with
      | none => exact count ▸ Nat.zero_lt_succ _
      | some n =>
        have below := Numbering.indexOf?_lt found
        have word := toNat_ofNat_le (n + 1)
        rw [UInt32.ofNat_add] at word
        exact count ▸ Nat.lt_of_le_of_lt word (Nat.succ_lt_succ below)
  · cases h
    exact count ▸ Nat.zero_lt_succ _

end ExportIndex

namespace Assembly

variable {g : FinalizedGraph} {index : ExportIndex} {config : ExportConfig}

theorem tensorEntry_ok {id : VariableId} {e : TensorEntry}
    (h : tensorEntry g index config id = .ok e) :
    ∃ v shape buffer, g.graph.lookup id = some v ∧
      v.tensor.shape.dims.mapM (dimension v.name) = .ok shape ∧
      index.bufferIndex g id = .ok buffer ∧
      e = ⟨some shape, v.tensor.elementType.code, buffer,
        if config.tensorNames then some v.name else none⟩ := by
  unfold tensorEntry at h
  cases hv : g.graph.lookup id with
  | none => rw [hv] at h; cases h
  | some v =>
    rw [hv] at h
    simp only [bind_ok_iff] at h
    obtain ⟨shape, dims, buffer, placed, h⟩ := h
    cases h
    exact ⟨v, shape, buffer, rfl, dims, placed, rfl⟩

theorem operatorEntry_ok {o : Operation} {e : OperatorEntry} (h : operatorEntry index o = .ok e) :
    ∃ code inputs outputs, index.kinds.toNumbering.indexOf? o.kind = some code ∧
      index.tensorIndices o.operands = .ok inputs ∧ index.tensorIndices o.outputs = .ok outputs ∧
      e = ⟨UInt32.ofNat code, some inputs, some outputs, optionsOf o.options⟩ := by
  unfold operatorEntry at h
  simp only [bind_ok_iff] at h
  obtain ⟨code, found, inputs, operands, outputs, results, h⟩ := h
  cases h
  obtain ⟨n, place, rfl⟩ := Numbering.Table.exists_place_of_indexOf found
  exact ⟨n, inputs, outputs, place, operands, results, rfl⟩

theorem subgraph_ok {operations : List Operation} {s : Subgraph}
    (h : subgraph g operations index config = .ok s) :
    ∃ tensors operators inputs outputs,
      index.tensors.values.mapM (tensorEntry g index config) = .ok tensors ∧
      operations.mapM (operatorEntry index) = .ok operators ∧
      index.tensorIndices g.graph.inputs = .ok inputs ∧
      index.tensorIndices g.graph.outputs = .ok outputs ∧
      s = ⟨some tensors, some inputs, some outputs, some operators,
        some (config.subgraphName.getD g.graph.name)⟩ := by
  unfold subgraph at h
  simp only [bind_ok_iff] at h
  obtain ⟨tensors, made, operators, lowered, inputs, starts, outputs, ends, h⟩ := h
  cases h
  exact ⟨tensors, operators, inputs, outputs, made, lowered, starts, ends, rfl⟩

theorem content_ok {operations : List Operation} {m : Model}
    (h : content g operations index config = .ok m) :
    ∃ s, subgraph g operations index config = .ok s ∧
      m = ⟨supportedVersion, some (index.kinds.values.map operatorCode), some [s],
        some config.description, some (buffers index)⟩ := by
  unfold content at h
  simp only [bind_ok_iff] at h
  obtain ⟨_, -, s, made, h⟩ := h
  cases h
  exact ⟨s, made, rfl⟩

theorem subgraph_wellFormed {operations : List Operation} {s : Subgraph}
    (h : subgraph g operations index config = .ok s) :
    s.WellFormed index.slots.length index.kinds.values.length := by
  obtain ⟨tensors, operators, inputs, outputs, made, lowered, starts, ends, rfl⟩ := subgraph_ok h
  have count : index.tensors.values.length = tensors.length := (mapM_ok_iff.1 made).length_eq
  refine ⟨fun t member => ?_, ?_, ?_, fun o member => ?_⟩
  · obtain ⟨id, -, entry⟩ := exists_of_mem_mapM made t member
    obtain ⟨v, shape, buffer, -, -, placed, rfl⟩ := tensorEntry_ok entry
    exact ExportIndex.bufferIndex_lt placed
  · have inside := ExportIndex.tensorIndices_inTensors starts
    rwa [count] at inside
  · have inside := ExportIndex.tensorIndices_inTensors ends
    rwa [count] at inside
  · obtain ⟨node, -, entry⟩ := exists_of_mem_mapM lowered o member
    obtain ⟨code, inputs, outputs, found, operands, results, rfl⟩ := operatorEntry_ok entry
    have inside := ExportIndex.tensorIndices_inTensors operands
    have inside' := ExportIndex.tensorIndices_inTensors results
    rw [count] at inside inside'
    exact ⟨Nat.lt_of_le_of_lt (toNat_ofNat_le code) (Numbering.indexOf?_lt found), inside, inside'⟩

theorem content_wellFormed {operations : List Operation} {m : Model}
    (h : content g operations index config = .ok m) : m.WellFormed := by
  obtain ⟨s, made, rfl⟩ := content_ok h
  refine ⟨rfl, ⟨⟨none⟩, (index.storages.values.map BufferSlot.data).map fun slot =>
    ⟨if slot.bytes.isEmpty then none else some slot.bytes⟩, rfl, rfl⟩, ⟨s, [], rfl⟩, ?_⟩
  intro t member
  rw [Option.getD_some, List.mem_singleton] at member
  subst member
  have fine := subgraph_wellFormed made
  simpa [buffers] using fine

end Assembly

theorem assemble_ok {g : FinalizedGraph} {operations : List Operation} {index : ExportIndex}
    {config : ExportConfig} {bytes : List UInt8}
    (h : assemble g operations index config = .ok bytes) :
    ∃ m, Assembly.content g operations index config = .ok m ∧ bytes = m.encode := by
  unfold assemble at h
  rw [bind_ok_iff] at h
  obtain ⟨m, made, h⟩ := h
  cases h
  exact ⟨m, made, rfl⟩

end LiteModel
