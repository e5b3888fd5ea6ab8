import LiteModel.ContainerFile
import LiteModel.Proofs.Container.Prefix
import LiteModel.Proofs.Export.Success

/-! Containers that are read back from bytes or files. One that was cut short is rejected, wherever
it was cut. -/
namespace LiteModel

open Container Sequencing

theorem ContainerFile.restore_of_rejected {reader : Files.Reader} {path : String}
    {bytes : List UInt8} {fault : VerificationFault} (given : reader path = .ok bytes)
    (h : verify bytes = .error fault) :
    ContainerFile.restore reader path = .error (.rejected fault) := by
  simp [ContainerFile.restore, ContainerFile.read, given, h, Except.mapError, bind, Except.bind]

/-- Every proper prefix of an export is rejected: by verification, as bytes to summarise, and as a
file to restore a graph from. -/
theorem toContainer_truncated {g : FinalizedGraph} {config : ExportConfig} {e : Export}
    (h : g.toContainer config = .ok e) (small : e.bytes.length ≤ 0x80000000) :
    ∀ n < e.bytes.length, ∃ fault, verify (e.bytes.take n) = .error fault ∧
      Summary.ofBytes (e.bytes.take n) = .error fault ∧
      ∀ (reader : Files.Reader) (path : String), reader path = .ok (e.bytes.take n) →
        ContainerFile.restore reader path = .error (.rejected fault) := by
  obtain ⟨operations, -, -, -, exported⟩ := FinalizedGraph.toContainer_ok_iff.1 h
  have bytes : e.bytes = (g.image config operations).encode := by
    rw [← exported, FinalizedGraph.report]
  rw [bytes] at small ⊢
  intro n short
  obtain ⟨rest, buffers⟩ : ∃ rest, (g.image config operations).buffers = some (⟨none⟩ :: rest) :=
    ⟨_, by rw [FinalizedGraph.image]⟩
  cases verdict : verify ((g.image config operations).encode.take n) with
  | ok _ => exact absurd verdict (Model.verify_take buffers small short)
  | error fault =>
    exact ⟨fault, rfl, Summary.ofBytes_of_rejected verdict,
      fun _ _ given => ContainerFile.restore_of_rejected given verdict⟩

theorem toContainer_truncated_biased : ∃ e, biased.toContainer {} = .ok e ∧ e.bytes.length = 400 ∧
    ∀ n < e.bytes.length, ∃ fault, verify (e.bytes.take n) = .error fault ∧
      Summary.ofBytes (e.bytes.take n) = .error fault ∧
      ∀ (reader : Files.Reader) (path : String), reader path = .ok (e.bytes.take n) →
        ContainerFile.restore reader path = .error (.rejected fault) := by
  obtain ⟨e, exported, length⟩ := biased_exported
  exact ⟨e, exported, length, toContainer_truncated exported (by omega)⟩

end LiteModel
