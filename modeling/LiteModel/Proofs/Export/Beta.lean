import LiteModel.Proofs.Export.Success

/-! The scale of a softmax operator through an export, bit for bit. A container leaves out a number
that is equal to what the reader puts in its place, and the two zeros are equal, so the sign of a
zero is the one bit that can be lost. -/
namespace LiteModel

open Container Sequencing

def Decimal.Binary32.negativeZero : UInt32 := 0x80000000

open Decimal.Binary32 in
theorem Container.Options.storedBeta_eq (bits : UInt32) :
    storedBeta bits = if bits = negativeZero then 0 else bits := by
  have range := bits.toNat_lt
  simp only [storedBeta, negativeZero, ← UInt32.toNat_inj, toNat_and_magnitude, unsigned]
  by_cases zero : bits.toNat % 0x80000000 = 0
  · by_cases minus : bits.toNat = 0x80000000
    · simp [minus]
    · have plus : bits = 0 := UInt32.toNat_inj.1 (by
        rw [UInt32.toNat_zero]
        omega)
      simp [plus]
  · have other : bits.toNat ≠ 0x80000000 := by omega
    simp [zero, other]

theorem Operation.softmax_of_ofLayer {l : Layer} {o : Operation} (h : ofLayer l = .ok o)
    (softmax : OperatorKind.ofLayerType? l.layerType = some .softmax) :
    ∃ beta, property l "beta" defaultBeta beta? = .ok beta ∧ o.options = some (.softmax beta) := by
  rw [ofLayer, softmax, bind_ok_iff] at h
  obtain ⟨options, given, made⟩ := h
  rw [optionsOf, bind_ok_iff] at given
  obtain ⟨beta, read, kept⟩ := given
  cases made
  cases kept
  exact ⟨beta, read, rfl⟩

namespace FinalizedGraph

variable {g : FinalizedGraph} {config : ExportConfig} {operations : List Operation}

theorem getElem?_summary_operators {k : Nat} {o : Operation} (place : operations[k]? = some o) :
    ∃ r, (g.summary config operations).operators[k]? = some r ∧
      r.options = (Assembly.optionsOf o.options).stored.known? := by
  simp [summary, Summary.ofModel, Summary.ofOperator, subgraphImage, Subgraph.stored,
    OperatorEntry.stored, operatorImage, List.getElem?_map, place]

end FinalizedGraph

/-- A softmax layer's scale comes back from an export with the bits that lowering gave it, except
that zero with a minus comes back without it. -/
theorem toContainer_beta {g : FinalizedGraph} {config : ExportConfig} {e : Export}
    (h : g.toContainer config = .ok e) (small : e.bytes.length ≤ 0x80000000) :
    ∃ operations s, g.lower = .ok operations ∧ Summary.ofBytes e.bytes = .ok s ∧
      ∀ (k : Nat) (l : Layer), g.graph.layers[k]? = some l →
        OperatorKind.ofLayerType? l.layerType = some .softmax →
        ∃ o r beta, operations[k]? = some o ∧ s.operators[k]? = some r ∧
          Operation.property l "beta" Operation.defaultBeta Operation.beta? = .ok beta ∧
          o.options = some (.softmax beta) ∧
          r.options = some (.softmax (if beta = Decimal.Binary32.negativeZero then 0 else beta)) := by
  obtain ⟨operations, lowered, -, read, -⟩ := FinalizedGraph.read_of_toContainer h small
  refine ⟨operations, _, lowered, read, fun k l layer softmax => ?_⟩
  obtain ⟨o, operation, lowers⟩ := forall₂_getElem? (mapM_ok_iff.1 lowered) layer
  obtain ⟨beta, given, options⟩ := Operation.softmax_of_ofLayer lowers softmax
  obtain ⟨r, operator, known⟩ := FinalizedGraph.getElem?_summary_operators operation
  refine ⟨o, r, beta, operation, operator, given, options, ?_⟩
  rw [known, options, ← Container.Options.storedBeta_eq]
  rfl

def scaled : FinalizedGraph where
  graph := {
    name := "scaled"
    arena := #[⟨"a", .placeholder (.vector 1) .f32⟩, ⟨"b", .placeholder (.vector 1) .f32⟩,
      ⟨"c", .placeholder (.vector 1) .f32⟩]
    layers := [⟨"least", "softmax", [⟨0⟩], [⟨1⟩], [], ⟨[("beta", " 1e-45 ")], by simp⟩⟩,
      ⟨"none", "softmax", [⟨1⟩], [⟨2⟩], [], ⟨[("beta", "-0.0")], by simp⟩⟩]
    inputs := [⟨0⟩]
    outputs := [⟨2⟩] }
  accepted := ⟨_, by cbv⟩

def scaledOperations : List Operation :=
  [⟨"least", .softmax, [⟨0⟩], [⟨1⟩], [], some (.softmax 1)⟩,
    ⟨"none", .softmax, [⟨1⟩], [⟨2⟩], [], some (.softmax Decimal.Binary32.negativeZero)⟩]

theorem lower_scaled : scaled.lower = .ok scaledOperations := by decide +kernel

set_option maxRecDepth 4000 in
theorem scaled_exported : ∃ e, scaled.toContainer {} = .ok e ∧ e.bytes.length = 456 := by
  have length : (scaled.image {} scaledOperations).encode.length = 456 := by cbv
  have tables : (scaled.image {} scaledOperations).tableCount = 11 := by cbv
  have size : (scaled.image {} scaledOperations).footprint.size = 591 := by cbv
  exact FinalizedGraph.exists_export_of_sizes lower_scaled (by cbv) (by decide) length tables size
    (by decide)

theorem toContainer_beta_scaled : ∃ e s r, scaled.toContainer {} = .ok e ∧ e.bytes.length = 456 ∧
    Summary.ofBytes e.bytes = .ok s ∧ s.operators[0]? = some r ∧ r.options = some (.softmax 1) := by
  obtain ⟨e, exported, length⟩ := scaled_exported
  obtain ⟨operations, s, lowered, read, each⟩ := toContainer_beta exported (by omega)
  cases lower_scaled.symm.trans lowered
  obtain ⟨o, r, beta, operation, operator, -, options, known⟩ := each 0 _ rfl (by cbv)
  cases operation
  cases options
  exact ⟨e, s, r, exported, length, read, operator, known⟩

/-- The second layer's scale does not come back with the bits that it had. -/
theorem toContainer_scaled_unsigned : ∃ e s l o r, scaled.toContainer {} = .ok e ∧
    e.bytes.length = 456 ∧ Summary.ofBytes e.bytes = .ok s ∧ scaled.lower = .ok scaledOperations ∧
    scaled.graph.layers[1]? = some l ∧ OperatorKind.ofLayerType? l.layerType = some .softmax ∧
    scaledOperations[1]? = some o ∧ o.options = some (.softmax 0x80000000) ∧
    s.operators[1]? = some r ∧ r.options = some (.softmax 0) := by
  obtain ⟨e, exported, length⟩ := scaled_exported
  obtain ⟨operations, lowered, -, read, -⟩ :=
    FinalizedGraph.read_of_toContainer exported (by omega)
  cases lower_scaled.symm.trans lowered
  have place : scaledOperations[1]? = some _ := rfl
  obtain ⟨r, operator, known⟩ := FinalizedGraph.getElem?_summary_operators place
  exact ⟨e, _, _, _, r, exported, length, read, lower_scaled, rfl, by cbv, place, rfl, operator,
    known⟩

end LiteModel
