import LiteModel.Proofs.Container.Length
import LiteModel.Proofs.Export.Outcome

/-! When an export succeeds. Below the limits of a container a finalized graph fails for three
reasons only: a layer that cannot be lowered, weights that leave no room for tables, or a dimension
that an integer of a container cannot hold. All look-ups on the way succeed, and what is assembled
is verified. Weights may leave too little room although the container would stay below the limits.
-/
namespace LiteModel

open Container Sequencing

def Shape.Fits (s : Shape) : Prop := ∀ d ∈ s.dims, d.toNat ≤ 0x7fffffff

namespace FinalizedGraph

/-- The container that the graph would have stays within two gigabytes and within what a walk may go
through. -/
structure WithinLimits (g : FinalizedGraph) (config : ExportConfig) (operations : List Operation) :
    Prop where
  bytes : (g.image config operations).encode.length ≤ 0x80000000
  tables : (g.image config operations).tableCount ≤ 1000000
  size : (g.image config operations).footprint.size ≤ 0x80000000

/-- Why a graph within the limits is not exported, with the error that says so. The weights come
before the dimensions. In the last case `d` is the first dimension that does not fit, of the first
such variable in the order of the numbers that the index gives. -/
inductive Fails (g : FinalizedGraph) : ExportError → Prop where
  | lowering {e : LoweringError} (lowered : g.lower = .error e) : Fails g (.lowering e)
  | weights {operations : List Operation} (lowered : g.lower = .ok operations)
      (full : 0x7fffffff < g.weightBytes operations + 4096) :
      Fails g (.oversizedWeights (g.weightBytes operations))
  | dimension {operations : List Operation} {index : ExportIndex} {before after : List VariableId}
      {id : VariableId} {v : Variable} {small rest : List UInt64} {d : UInt64}
      (lowered : g.lower = .ok operations) (room : g.weightBytes operations + 4096 ≤ 0x7fffffff)
      (built : ExportIndex.build g operations = .ok index)
      (order : index.tensors.values = before ++ id :: after)
      (fine : ∀ a ∈ before, ∀ u, g.graph.lookup a = some u → u.tensor.shape.Fits)
      (found : g.graph.lookup id = some v) (dims : v.tensor.shape.dims = small ++ d :: rest)
      (fits : ∀ c ∈ small, c.toNat ≤ 0x7fffffff) (large : 0x7fffffff < d.toNat) :
      Fails g (.oversizedDimension d v.name)

variable {g : FinalizedGraph} {config : ExportConfig} {operations : List Operation}

theorem length_usedVariables_le (few : (g.image config operations).tableCount ≤ 1000000) :
    (g.usedVariables operations).length ≤ 1000000 := by
  simp only [image, Model.tableCount, Subgraph.tableCount, subgraphImage, Option.getD_some,
    List.map_cons, List.map_nil, List.sum_cons, List.sum_nil, List.length_map] at few
  omega

theorem oversizedWeights?_eq_none (room : g.weightBytes operations + 4096 ≤ 0x7fffffff) :
    g.oversizedWeights? operations = none := if_neg (Nat.not_lt.2 room)

theorem WithinLimits.fault?_eq (limits : g.WithinLimits config operations)
    (room : g.weightBytes operations + 4096 ≤ 0x7fffffff) :
    g.fault? operations = (g.usedVariables operations).findSome? g.oversizedShape? := by
  have numbers : ∀ id, g.oversizedNumber? operations id = none := by
    intro id
    have few := length_usedVariables_le limits.tables
    have below : g.tensorNumber operations id ≤ (g.usedVariables operations).length :=
      List.idxOf_le_length
    have word : (g.tensorWord operations id).toNat ≤ g.tensorNumber operations id :=
      toNat_ofNat_le _
    simp only [oversizedNumber?, ExportIndex.largestInteger]
    exact if_pos (by omega)
  have none : ∀ ids : List VariableId, ids.findSome? (g.oversizedNumber? operations) = none :=
    fun ids => List.findSome?_eq_none_iff.2 fun id _ => numbers id
  have operands : operations.findSome? (g.oversizedOperand? operations) = .none :=
    List.findSome?_eq_none_iff.2 fun o _ => by rw [oversizedOperand?, none, none, Option.or_none]
  simp only [fault?, oversizedWeights?_eq_none room, operands, none, Option.none_or,
    Option.or_none]

theorem WithinLimits.toContainer_eq (limits : g.WithinLimits config operations)
    (lowered : g.lower = .ok operations)
    (room : g.weightBytes operations + 4096 ≤ 0x7fffffff) : g.toContainer config =
      outcome ((g.usedVariables operations).findSome? g.oversizedShape?)
        (g.report operations (g.image config operations)) := by
  rw [FinalizedGraph.toContainer_eq lowered, ← limits.fault?_eq room]
  cases fine : g.fault? operations with
  | some fault => rfl
  | none =>
  obtain ⟨index, built⟩ := exists_build lowered
  have made : Assembly.content g operations index config =
      .ok (g.image config operations) := by
    rw [Assembly.content_eq lowered built, fine]
    rfl
  have verified : verify (g.image config operations).encode = .ok () := by
    have tables := limits.tables
    have size := limits.size
    rcases Model.verify_encode (Assembly.content_wellFormed made) limits.bytes with
      verified | ⟨-, beyond⟩ | ⟨-, beyond⟩
    · exact verified
    · simp only [Usage.maxTables] at beyond
      omega
    · simp only [Usage.maxSize] at beyond
      omega
  simp only [outcome, verified, Except.mapError, bind, Except.bind, pure, Except.pure]

theorem WithinLimits.exists_export (limits : g.WithinLimits config operations)
    (lowered : g.lower = .ok operations)
    (room : g.weightBytes operations + 4096 ≤ 0x7fffffff)
    (fine : (g.usedVariables operations).findSome? g.oversizedShape? = none) :
    ∃ e, g.toContainer config = .ok e :=
  ⟨_, by rw [limits.toContainer_eq lowered room, fine, outcome]⟩

theorem WithinLimits.of_counts {tables size : Nat}
    (entries : (g.image config operations).tableCount = tables)
    (walked : (g.image config operations).footprint.size = size)
    (small : tables ≤ 1000000 ∧ size + 56 * tables + 7 ≤ 0x80000000) :
    g.WithinLimits config operations := by
  have length := (g.image config operations).length_encode_le
  exact ⟨by omega, by omega, by omega⟩

theorem exists_export_of_sizes {length tables size : Nat} (lowered : g.lower = .ok operations)
    (fine : (g.usedVariables operations).findSome? g.oversizedShape? = none)
    (room : g.weightBytes operations + 4096 ≤ 0x7fffffff)
    (bytes : (g.image config operations).encode.length = length)
    (entries : (g.image config operations).tableCount = tables)
    (walked : (g.image config operations).footprint.size = size)
    (small : length ≤ 0x80000000 ∧ tables ≤ 1000000 ∧ size ≤ 0x80000000) :
    ∃ e, g.toContainer config = .ok e ∧ e.bytes.length = length := by
  subst bytes entries walked
  obtain ⟨bytes, tables, size⟩ := small
  have limits : g.WithinLimits config operations := ⟨bytes, tables, size⟩
  exact ⟨g.report operations (g.image config operations),
    by rw [limits.toContainer_eq lowered room, fine, outcome], by rw [report]⟩

end FinalizedGraph

set_option maxRecDepth 4000 in
theorem biased_exported : ∃ e, biased.toContainer {} = .ok e ∧ e.bytes.length = 400 := by
  have lowered : biased.lower = .ok biasedOperations := by cbv
  have length : (biased.image {} biasedOperations).encode.length = 400 := by cbv
  have tables : (biased.image {} biasedOperations).tableCount = 9 := by cbv
  have size : (biased.image {} biasedOperations).footprint.size = 507 := by cbv
  exact FinalizedGraph.exists_export_of_sizes lowered (by cbv) (by decide) length tables size
    (by decide)

section laden

-- the bytes of the weight stay unknown, as there are too many to be written out
variable {weight : Storage} {fits : Bool}

end laden

end LiteModel
