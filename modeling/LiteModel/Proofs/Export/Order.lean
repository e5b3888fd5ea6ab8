import LiteModel.Proofs.Export.Success

/-! The operators of a container in their order. An export keeps the order of the layers and numbers
variables one to one; so what holds of the layers of an accepted graph holds of the operators that
are read back, which may be run one after another. -/
namespace LiteModel

open Container Sequencing

structure Container.Summary.Runs (g : Graph) (number : VariableId → Int32) (s : Summary) :
    Prop where
  operators : List.Forall₂ (fun l r => r.inputs = (l.inputs ++ l.weights).map number ∧
    r.outputs = l.outputs.map number) g.layers s.operators
  inputs : s.inputs = g.inputs.map number
  outputs : s.outputs = g.outputs.map number
  apart : ∀ a ∈ g.references, ∀ b ∈ g.references, number a = number b → a = b

/-- The operators are one for each layer and can be run as they stand: what the inputs of a layer
are given as is an input of the whole or an output of an operator further up, and nothing is an
output twice. -/
structure Container.Summary.Ordered (g : Graph) (s : Summary) : Prop where
  complete : s.operators.length = g.layers.length
  ready : ∀ (k : Nat) (l : Layer) (r : OperatorSummary), g.layers[k]? = some l →
    s.operators[k]? = some r → ∀ i ∈ r.inputs.take l.inputs.length,
      i ∈ s.inputs ∨ ∃ j < k, ∃ p : OperatorSummary, s.operators[j]? = some p ∧ i ∈ p.outputs
  once : (s.operators.flatMap (·.outputs)).Nodup
  apart : ∃ number, s.Runs g number

namespace Container.Summary.Runs

variable {g : Graph} {number : VariableId → Int32} {s : Summary}

theorem ready (h : s.Runs g number) (accepted : g.Accepted) {k : Nat} {l : Layer}
    {r : OperatorSummary} (layer : g.layers[k]? = some l) (place : s.operators[k]? = some r) :
    ∀ i ∈ r.inputs.take l.inputs.length,
      i ∈ s.inputs ∨ ∃ j < k, ∃ p, s.operators[j]? = some p ∧ i ∈ p.outputs := by
  obtain ⟨_, again, inputs, -⟩ := forall₂_getElem? h.operators layer
  cases place.symm.trans again
  have operands : r.inputs.take l.inputs.length = l.inputs.map number := by
    rw [inputs, List.map_append]
    exact List.take_left' (List.length_map number)
  rw [operands, h.inputs]
  intro i member
  obtain ⟨id, input, rfl⟩ := List.mem_map.1 member
  rcases accepted.layers.ready layer id input with start | ⟨j, before, m, there, output⟩
  · exact .inl (List.mem_map_of_mem start)
  · obtain ⟨p, operator, -, outputs⟩ := forall₂_getElem? h.operators there
    exact .inr ⟨j, before, p, operator, outputs ▸ List.mem_map_of_mem output⟩

theorem flatMap_outputs (h : s.Runs g number) :
    s.operators.flatMap (·.outputs) = (g.layers.flatMap (·.outputs)).map number := by
  have pairs := h.operators
  generalize g.layers = layers at pairs
  generalize s.operators = operators at pairs
  induction pairs with
  | nil => rfl
  | cons first _ ih => rw [List.flatMap_cons, List.flatMap_cons, List.map_append, first.2, ih]

theorem once (h : s.Runs g number) (accepted : g.Accepted) :
    (s.operators.flatMap (·.outputs)).Nodup := by
  rw [h.flatMap_outputs]
  refine List.Nodup.map_on (fun a ha b hb => h.apart a ?_ b ?_) accepted.layers.once.1
  · exact Graph.layer_outputs_subset ha
  · exact Graph.layer_outputs_subset hb

theorem ordered (h : s.Runs g number) (accepted : g.Accepted) : s.Ordered g where
  complete := h.operators.length_eq.symm
  ready _ _ _ layer place := h.ready accepted layer place
  once := h.once accepted
  apart := ⟨number, h⟩

end Container.Summary.Runs

theorem FinalizedGraph.summary_runs {g : FinalizedGraph} {config : ExportConfig}
    {operations : List Operation} (lowered : g.lower = .ok operations)
    (marks : g.Marked operations) :
    (g.summary config operations).Runs g.graph (g.tensorMark operations) where
  operators := by
    have pairs := mapM_ok_iff.1 lowered
    apply List.forall₂_map_right_iff.2
    apply List.forall₂_map_right_iff.2
    apply List.forall₂_map_right_iff.2
    refine pairs.imp fun l o layer => ?_
    obtain ⟨-, -, inputs, outputs, weights⟩ := Operation.ofLayer_ok layer
    rw [← inputs, ← outputs, ← weights]
    exact ⟨rfl, rfl⟩
  inputs := rfl
  outputs := rfl
  apart := marks.injective lowered

/-- The operators of an export can be run in the order in which they are read back, and no two
variables of the graph have one number. -/
theorem toContainer_ordered {g : FinalizedGraph} {config : ExportConfig} {e : Export}
    (h : g.toContainer config = .ok e) (small : e.bytes.length ≤ 0x80000000) :
    ∃ s, Summary.ofBytes e.bytes = .ok s ∧ s.Ordered g.graph := by
  obtain ⟨operations, lowered, marks, read, -⟩ := FinalizedGraph.read_of_toContainer h small
  exact ⟨_, read, (FinalizedGraph.summary_runs lowered marks).ordered g.isAccepted⟩

set_option maxRecDepth 4000 in
theorem toContainer_ordered_normalized : ∃ e, normalized.toContainer {} = .ok e ∧
    e.bytes.length = 460 ∧ ∃ s, Summary.ofBytes e.bytes = .ok s ∧ s.Ordered normalized.graph := by
  have lowered : normalized.lower = .ok normalizedOperations := by cbv
  have length : (normalized.image {} normalizedOperations).encode.length = 460 := by cbv
  have tables : (normalized.image {} normalizedOperations).tableCount = 11 := by cbv
  have size : (normalized.image {} normalizedOperations).footprint.size = 598 := by cbv
  obtain ⟨e, exported, length⟩ := FinalizedGraph.exists_export_of_sizes lowered (by cbv) (by decide)
    length tables size (by decide)
  exact ⟨e, exported, length, toContainer_ordered exported (by omega)⟩

end LiteModel
