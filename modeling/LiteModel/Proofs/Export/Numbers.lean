import LiteModel.Proofs.Export.Outcome

/-! The numbers that an index gives for the graph it was built from. Kinds, variables and storages
are counted in the order of first use. A weight has the number of its own storage, so weights have
the same number just when they share a storage, whatever their bytes are; and what is no weight, or
has no data, has the number of the empty buffer. -/
namespace LiteModel

open Sequencing

def Graph.data? (g : Graph) (id : VariableId) : Option Storage :=
  (g.lookup id).bind fun v => if 0 ∈ v.tensor.shape.dims then none else v.tensor.storage

namespace FinalizedGraph

variable {g : FinalizedGraph} {operations : List Operation}

theorem bufferNumber_of_weight (lowered : g.lower = .ok operations) {id : VariableId} {s : Storage}
    (weight : id ∈ g.graph.weights) (stored : g.storage? id = some s) :
    g.bufferNumber operations id = (g.usedStorages operations).idxOf s + 1 := by
  rw [← weights_of_lower lowered] at weight
  rw [bufferNumber, if_pos weight, stored]

theorem bufferNumber_ne_zero_iff (lowered : g.lower = .ok operations) {id : VariableId} :
    g.bufferNumber operations id ≠ 0 ↔ id ∈ g.graph.weights ∧ ∃ s, g.storage? id = some s := by
  rw [bufferNumber, weights_of_lower lowered]
  by_cases weight : id ∈ g.graph.weights
  · cases g.storage? id <;> simp [weight]
  · simp [weight]

end FinalizedGraph

namespace ExportIndex

/-- What an index that was built for a graph and these operations counts, and which number each
variable's data has. -/
structure Numbers (g : FinalizedGraph) (operations : List Operation) (index : ExportIndex) :
    Prop where
  kinds : index.kinds.values = (operations.map (·.kind)).eraseDups
  tensors : index.tensors.values =
    (operations.flatMap (fun o => o.inputs ++ o.outputs ++ o.weights) ++
      (g.graph.inputs ++ g.graph.outputs)).eraseDups
  slots : index.slots =
    .empty :: ((operations.flatMap (·.weights)).filterMap g.graph.data?).eraseDups.map .data
  other : ∀ id ∉ operations.flatMap (·.weights), index.bufferIndex g id = .ok 0
  bare : ∀ id, g.graph.data? id = none → index.bufferIndex g id = .ok 0
  /-- A weight has the word for the place of its own storage. There is one such place, and it is not
  the first. -/
  own : ∀ id ∈ operations.flatMap (·.weights), ∀ s, g.graph.data? id = some s →
    ∃ n, index.bufferIndex g id = .ok (UInt32.ofNat (n + 1)) ∧
      ∀ i, (∃ t, index.slots[i]? = some (.data t) ∧ t.id = s.id) ↔ i = n + 1
  shared : ∀ a ∈ operations.flatMap (·.weights), ∀ b ∈ operations.flatMap (·.weights), ∀ s t,
    g.graph.data? a = some s → g.graph.data? b = some t → s.id = t.id →
      index.bufferIndex g a = index.bufferIndex g b
  /-- With no more slots than there are words, the number of a weight is the place itself. -/
  exact : index.slots.length ≤ UInt32.size → ∀ id ∈ operations.flatMap (·.weights), ∀ s,
    g.graph.data? id = some s → ∃ i, index.bufferIndex g id = .ok i ∧ 1 ≤ i.toNat ∧
      ∃ t, index.slots[i.toNat]? = some (.data t) ∧ t.id = s.id
  apart : index.slots.length ≤ UInt32.size → ∀ a ∈ operations.flatMap (·.weights),
    ∀ b ∈ operations.flatMap (·.weights), ∀ s t, g.graph.data? a = some s →
      g.graph.data? b = some t → index.bufferIndex g a = index.bufferIndex g b → s.id = t.id

variable {g : FinalizedGraph} {operations : List Operation} {index : ExportIndex}

end ExportIndex

end LiteModel
