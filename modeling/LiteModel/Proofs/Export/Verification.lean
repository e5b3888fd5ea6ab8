import Mathlib
import LiteModel.Proofs.Container.Footprint
import LiteModel.Proofs.Export.Content

/-! What is assembled is verified. The content is well formed whatever it was assembled from, and
a container of well-formed content is accepted unless the walk through it passes a bound. -/
namespace LiteModel

open Container

namespace Container

theorem Subgraph.WellFormed.stored {bufferCount codeCount : Nat} {s : Subgraph}
    (h : s.WellFormed bufferCount codeCount) : s.stored.WellFormed bufferCount codeCount where
  buffers := h.buffers
  inputs := h.inputs
  outputs := h.outputs
  operators := by
    intro o member
    cases present : s.operators with
    | none => simp [Subgraph.stored, present] at member
    | some operators =>
      have member : o ∈ operators.map OperatorEntry.stored := by
        simpa [Subgraph.stored, present] using member
      obtain ⟨entry, there, rfl⟩ := List.mem_map.1 member
      exact h.operators entry (by simpa [present] using there)

theorem Model.WellFormed.stored {m : Model} (h : m.WellFormed) : m.stored.WellFormed where
  version := h.version
  sentinel := h.sentinel
  nonempty := by
    obtain ⟨s, rest, present⟩ := h.nonempty
    exact ⟨s.stored, rest.map Subgraph.stored, by simp [Model.stored, present]⟩
  subgraphs := by
    intro s member
    cases present : m.subgraphs with
    | none => simp [Model.stored, present] at member
    | some subgraphs =>
      have member : s ∈ subgraphs.map Subgraph.stored := by
        simpa [Model.stored, present] using member
      obtain ⟨entry, there, rfl⟩ := List.mem_map.1 member
      exact (h.subgraphs entry (by simpa [present] using there)).stored

theorem Model.verify_encode {m : Model} (fine : m.WellFormed)
    (small : m.encode.length ≤ 0x80000000) :
    verify m.encode = .ok () ∨
      (verify m.encode = .error (.structure .tooManyTables) ∧ Usage.maxTables < m.tableCount) ∨
      (verify m.encode = .error (.structure .apparentSizeTooLarge) ∧
        Usage.maxSize < m.footprint.size) := by
  obtain ⟨marked, read, walked⟩ := Model.encode_read small
  have refused : ∀ fault, File.usage m.encode.toArray = .error fault →
      verify m.encode = .error (.structure fault) := by
    intro fault stopped
    simp [verify, File.accept, marked, File.root, stopped, bind, Except.bind, Except.mapError]
  rw [← Model.tables_footprint]
  rcases File.usage_of_uses walked with used | ⟨stopped, beyond⟩ | ⟨stopped, beyond⟩
  · have root : File.root m.encode.toArray = .ok m.stored := by
      simp [File.root, used, read, bind, Except.bind, pure, Except.pure]
    exact .inl (verify_ok_iff.2 ⟨m.stored, File.accept_ok_iff.2 ⟨marked, root, fine.stored⟩⟩)
  · exact .inr (.inl ⟨refused _ stopped, beyond⟩)
  · exact .inr (.inr ⟨refused _ stopped, beyond⟩)

end Container

/-- Bytes that are assembled from whatever graph, operations and index, and are not more than two
gigabytes, are verified, unless the walk goes through more tables or more bytes than it may. -/
theorem assemble_verified {g : FinalizedGraph} {operations : List Operation} {index : ExportIndex}
    {config : ExportConfig} {bytes : List UInt8}
    (h : assemble g operations index config = .ok bytes) (small : bytes.length ≤ 0x80000000) :
    ∃ m, Assembly.content g operations index config = .ok m ∧ bytes = m.encode ∧
      (verify bytes = .ok () ∨
        (verify bytes = .error (.structure .tooManyTables) ∧ 1000000 < m.tableCount) ∨
        (verify bytes = .error (.structure .apparentSizeTooLarge) ∧
          0x80000000 < m.footprint.size)) := by
  obtain ⟨m, made, rfl⟩ := assemble_ok h
  exact ⟨m, made, rfl, Model.verify_encode (Assembly.content_wellFormed made) small⟩

def biased : FinalizedGraph where
  graph := {
    name := "biased"
    arena := #[⟨"x", .placeholder (.vector 1) .f32⟩, ⟨"y", .placeholder (.vector 1) .f32⟩,
      ⟨"bias", ⟨.vector 1, .f32, some (.ofBytes ⟨0⟩ [0, 0, 0x80, 0x3f])⟩⟩]
    layers := [⟨"sum", "add", [⟨0⟩], [⟨1⟩], [⟨2⟩], .empty⟩]
    inputs := [⟨0⟩]
    outputs := [⟨1⟩] }
  accepted := ⟨_, by cbv⟩

def normalized : FinalizedGraph where
  graph := {
    name := "normalized"
    arena := #[⟨"a", .placeholder (.vector 2) .f32⟩, ⟨"b", .placeholder (.vector 2) .f32⟩,
      ⟨"c", .placeholder (.vector 2) .f32⟩]
    layers := [⟨"scale", "softmax", [⟨0⟩], [⟨2⟩], [], .empty⟩,
      ⟨"sum", "add", [⟨0⟩, ⟨2⟩], [⟨1⟩], [], .empty⟩]
    inputs := [⟨0⟩]
    outputs := [⟨1⟩] }
  accepted := ⟨_, by cbv⟩

def biasedOperations : List Operation := [⟨"sum", .add, [⟨0⟩], [⟨1⟩], [⟨2⟩], none⟩]

def normalizedOperations : List Operation :=
  [⟨"scale", .softmax, [⟨0⟩], [⟨2⟩], [], some (.softmax 0x3f800000)⟩,
    ⟨"sum", .add, [⟨0⟩, ⟨2⟩], [⟨1⟩], [], none⟩]

def normalizedIndex : ExportIndex where
  kinds := .ofList [.softmax, .add]
  tensors := .ofList [⟨0⟩, ⟨2⟩, ⟨1⟩]

set_option maxRecDepth 4000 in
theorem assemble_verified_biased :
    biased.lower = .ok biasedOperations ∧ normalized.lower = .ok normalizedOperations ∧
      ExportIndex.build normalized normalizedOperations = .ok normalizedIndex ∧
      ∃ bytes m, assemble biased biasedOperations normalizedIndex {} = .ok bytes ∧
        bytes.length = 388 ∧
        (verify bytes = .ok () ∨
          (verify bytes = .error (.structure .tooManyTables) ∧ 1000000 < Model.tableCount m) ∨
          (verify bytes = .error (.structure .apparentSizeTooLarge) ∧
            0x80000000 < (Model.footprint m).size)) := by
  refine ⟨by cbv, by cbv, by cbv, ?_⟩
  have length : (assemble biased biasedOperations normalizedIndex {}).map List.length =
      .ok 388 := by cbv
  cases made : assemble biased biasedOperations normalizedIndex {} with
  | error e =>
    rw [made] at length
    cases length
  | ok bytes =>
    rw [made] at length
    have length : bytes.length = 388 := Except.ok.inj length
    obtain ⟨m, -, -, verdict⟩ := assemble_verified made (by omega)
    exact ⟨bytes, m, rfl, length, verdict⟩

end LiteModel
