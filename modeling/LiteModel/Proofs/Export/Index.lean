import LiteModel.Export.Index
import LiteModel.Proofs.Numbering.Table
import LiteModel.Proofs.Sequencing

/-! What an index holds once it is built: the kinds, the variables and the storages that a graph and
its operations use, each where it first appears and never again. Building fails only at a weight
that the graph does not have. -/
namespace LiteModel

open Sequencing

/-- The storage behind a variable that has elements. -/
def FinalizedGraph.storage? (g : FinalizedGraph) (id : VariableId) : Option Storage :=
  (g.graph.lookup id).bind fun v => (BufferSlot.ofTensor v.tensor).storage?

theorem FinalizedGraph.storage?_eq_some_iff {g : FinalizedGraph} {id : VariableId} {s : Storage} :
    g.storage? id = some s ↔ ∃ v, g.graph.lookup id = some v ∧ v.tensor.storage = some s ∧
      v.tensor.isInitialized = true := by
  rw [storage?, Option.bind_eq_some_iff]
  refine exists_congr fun v => and_congr_right fun _ => ?_
  unfold BufferSlot.ofTensor
  cases v.tensor.storage with
  | none => simp [BufferSlot.storage?]
  | some b => cases v.tensor.isInitialized <;> simp [BufferSlot.storage?]

theorem BufferSlot.ofVariable_ok {g : FinalizedGraph} {id : VariableId} {slot : BufferSlot}
    (h : BufferSlot.ofVariable g id = .ok slot) : g.storage? id = slot.storage? := by
  unfold BufferSlot.ofVariable at h
  unfold FinalizedGraph.storage?
  cases hv : g.graph.lookup id with
  | none =>
    rw [hv] at h
    cases h
  | some v =>
    rw [hv] at h
    cases h
    rfl

def Operation.references (o : Operation) : List VariableId := o.inputs ++ o.outputs ++ o.weights

namespace ExportIndex

def withWeights (g : FinalizedGraph) (index : ExportIndex) (ids : List VariableId) : ExportIndex :=
  { index with
    weights := index.weights ++ ids
    storages := index.storages.addAll (ids.filterMap g.storage?) }

variable {g : FinalizedGraph} {index built : ExportIndex}

theorem addWeight_ok {id : VariableId} (h : addWeight g index id = .ok built) :
    built = index.withWeights g [id] := by
  unfold addWeight at h
  rw [bind_ok_iff] at h
  obtain ⟨slot, looked, h⟩ := h
  cases h
  have storage := BufferSlot.ofVariable_ok looked
  have listed : [id].filterMap g.storage? = slot.storage?.toList := by
    rw [← storage]
    cases hs : g.storage? id <;> simp [hs]
  rw [withWeights, listed]

theorem withWeights_append (ids more : List VariableId) :
    (index.withWeights g ids).withWeights g more = index.withWeights g (ids ++ more) := by
  simp only [withWeights, List.append_assoc, List.filterMap_append, Numbering.Table.addAll_append]

theorem addWeights_ok {ids : List VariableId} (h : ids.foldlM (addWeight g) index = .ok built) :
    built = index.withWeights g ids := by
  induction ids generalizing index with
  | nil =>
    cases h
    simp [withWeights, Numbering.Table.addAll]
  | cons id rest ih =>
    rw [List.foldlM_cons, bind_ok_iff] at h
    obtain ⟨next, first, others⟩ := h
    rw [ih others, addWeight_ok first, withWeights_append, List.singleton_append]

def withOperations (g : FinalizedGraph) (index : ExportIndex) (operations : List Operation) :
    ExportIndex :=
  withWeights g
    { index with
      kinds := index.kinds.addAll (operations.map (·.kind))
      tensors := index.tensors.addAll (operations.flatMap Operation.references) }
    (operations.flatMap (·.weights))

theorem withOperations_cons (o : Operation) (rest : List Operation) :
    (index.withOperations g [o]).withOperations g rest = index.withOperations g (o :: rest) := by
  simp only [withOperations, withWeights, List.map_cons, List.map_nil, List.flatMap_cons,
    List.flatMap_nil, List.append_nil, List.append_assoc, List.filterMap_append,
    Numbering.Table.addAll_append]
  rfl

theorem addOperation_ok {o : Operation} (h : addOperation g index o = .ok built) :
    built = index.withOperations g [o] := by
  rw [addWeights_ok h]
  simp only [withOperations, withWeights, List.map_cons, List.map_nil, List.flatMap_cons,
    List.flatMap_nil, List.append_nil]
  rfl

theorem addOperations_ok {operations : List Operation}
    (h : operations.foldlM (addOperation g) index = .ok built) :
    built = index.withOperations g operations := by
  induction operations generalizing index with
  | nil =>
    cases h
    simp [withOperations, withWeights, Numbering.Table.addAll]
  | cons o rest ih =>
    rw [List.foldlM_cons, bind_ok_iff] at h
    obtain ⟨next, first, others⟩ := h
    rw [ih others, addOperation_ok first, withOperations_cons]

end ExportIndex

namespace FinalizedGraph

def usedKinds (operations : List Operation) : List OperatorKind :=
  (operations.map (·.kind)).eraseDups

def usedVariables (g : FinalizedGraph) (operations : List Operation) : List VariableId :=
  (operations.flatMap Operation.references ++ (g.graph.inputs ++ g.graph.outputs)).eraseDups

def usedStorages (g : FinalizedGraph) (operations : List Operation) : List Storage :=
  ((operations.flatMap (·.weights)).filterMap g.storage?).eraseDups

end FinalizedGraph

/-- What is numbered, in which order. -/
theorem ExportIndex.build_ok {g : FinalizedGraph} {operations : List Operation}
    {index : ExportIndex} (h : ExportIndex.build g operations = .ok index) :
    index.kinds.values = FinalizedGraph.usedKinds operations ∧
      index.tensors.values = g.usedVariables operations ∧
      index.storages.values = g.usedStorages operations ∧
      index.weights = operations.flatMap (·.weights) := by
  unfold ExportIndex.build at h
  rw [bind_ok_iff] at h
  obtain ⟨filled, all, h⟩ := h
  cases h
  rw [ExportIndex.addOperations_ok all]
  refine ⟨?_, ?_, ?_, rfl⟩
  · exact Numbering.Table.values_addAll_empty _
  · have together := Numbering.Table.addAll_append .empty
      (operations.flatMap Operation.references) (g.graph.inputs ++ g.graph.outputs)
    rw [FinalizedGraph.usedVariables, ← Numbering.Table.values_addAll_empty, together]
    rfl
  · exact Numbering.Table.values_addAll_empty _

end LiteModel
