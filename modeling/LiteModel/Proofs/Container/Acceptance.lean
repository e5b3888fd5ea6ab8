import LiteModel.Container.Summary
import LiteModel.Proofs.Sequencing
import LiteModel.Proofs.Container.Inside

/-! What acceptance means. `Model.WellFormed` says of the content, without an order of checks, when
its references are in order; the checks find no fault just then. Summaries are made of what is
accepted and of nothing else, and their indices all point at something. -/
namespace LiteModel.Container

def InTensors (count : Nat) (indices : List Int32) : Prop :=
  ∀ i ∈ indices, i = -1 ∨ (0 ≤ i.toInt ∧ i.toInt < count)

structure Subgraph.WellFormed (bufferCount codeCount : Nat) (s : Subgraph) : Prop where
  buffers : ∀ t ∈ s.tensors.getD [], t.buffer.toNat < bufferCount
  inputs : InTensors s.tensorCount (s.inputs.getD [])
  outputs : InTensors s.tensorCount (s.outputs.getD [])
  operators : ∀ o ∈ s.operators.getD [], o.codeIndex.toNat < codeCount ∧
    InTensors s.tensorCount (o.inputs.getD []) ∧ InTensors s.tensorCount (o.outputs.getD [])

structure Model.WellFormed (m : Model) : Prop where
  version : m.version = 3
  sentinel : ∃ b rest, m.buffers = some (b :: rest) ∧ b.data.getD [] = []
  nonempty : ∃ s rest, m.subgraphs = some (s :: rest)
  subgraphs : ∀ s ∈ m.subgraphs.getD [],
    s.WellFormed (m.buffers.getD []).length (m.operatorCodes.getD []).length

theorem require_ok_iff {holds : Bool} {fault : ReferenceFault} :
    require holds fault = .ok () ↔ holds = true := by
  cases holds <;> simp [require]

theorem forEachIndexed_ok_iff {α : Type} {items : List α} {check : Nat → α → Findings} :
    forEachIndexed items check = .ok () ↔ ∀ i a, items[i]? = some a → check i a = .ok () := by
  unfold forEachIndexed
  rw [Sequencing.forM_ok_iff]
  constructor
  · intro h i a hi
    exact h (a, i) (List.mem_zipIdx_iff_getElem?.2 hi)
  · rintro h ⟨a, i⟩ member
    exact h i a (List.mem_zipIdx_iff_getElem?.1 member)

theorem forEachIndexed_ok_iff_forall_mem {α : Type} {items : List α} {check : Nat → α → Findings}
    {P : α → Prop} (same : ∀ i a, check i a = .ok () ↔ P a) :
    forEachIndexed items check = .ok () ↔ ∀ a ∈ items, P a := by
  rw [forEachIndexed_ok_iff]
  simp only [same, List.mem_iff_getElem?]
  exact ⟨fun h a ⟨i, hi⟩ => h i a hi, fun h i a hi => h a ⟨i, hi⟩⟩

theorem isTensorIndex_iff {count : Nat} {i : Int32} :
    isTensorIndex count i = true ↔ i = -1 ∨ (0 ≤ i.toInt ∧ i.toInt < count) := by
  simp [isTensorIndex]

theorem checkTensorList_ok_iff {list : TensorList} {count : Nat} {indices : Option (List Int32)} :
    checkTensorList list count indices = .ok () ↔ InTensors count (indices.getD []) := by
  unfold checkTensorList InTensors
  rw [Sequencing.forM_ok_iff]
  simp only [require_ok_iff, isTensorIndex_iff]

theorem then_ok_iff {x y : Findings} : (x >>= fun _ => y) = .ok () ↔ x = .ok () ∧ y = .ok () := by
  rw [Sequencing.bind_ok_iff]
  exact ⟨fun ⟨_, hx, hy⟩ => ⟨hx, hy⟩, fun ⟨hx, hy⟩ => ⟨(), hx, hy⟩⟩

theorem Subgraph.checkReferences_ok_iff {bufferCount codeCount number : Nat} {s : Subgraph} :
    s.checkReferences bufferCount codeCount number = .ok () ↔
      s.WellFormed bufferCount codeCount := by
  unfold Subgraph.checkReferences
  simp only [then_ok_iff, checkTensorList_ok_iff]
  rw [forEachIndexed_ok_iff_forall_mem (fun i t => by rw [require_ok_iff, decide_eq_true_iff]),
    forEachIndexed_ok_iff_forall_mem (fun i o => by
      rw [then_ok_iff, then_ok_iff, require_ok_iff, decide_eq_true_iff, checkTensorList_ok_iff,
        checkTensorList_ok_iff])]
  exact ⟨fun ⟨buffers, inputs, outputs, operators⟩ => ⟨buffers, inputs, outputs, operators⟩,
    fun h => ⟨h.buffers, h.inputs, h.outputs, h.operators⟩⟩

theorem Buffer.isEmpty_iff {b : Buffer} : b.isEmpty = true ↔ b.data.getD [] = [] := by
  cases h : b.data <;> simp [Buffer.isEmpty, Buffer.size, h]

theorem eq_some_of_getD_eq_cons {α : Type} {o : Option (List α)} {a : α} {rest : List α}
    (h : o.getD [] = a :: rest) : o = some (a :: rest) := by
  cases o with
  | none => cases h
  | some items => exact congrArg some h

theorem Model.checkReferences_ok_iff {m : Model} : m.checkReferences = .ok () ↔ m.WellFormed := by
  unfold Model.checkReferences
  rw [then_ok_iff, require_ok_iff, beq_iff_eq]
  cases buffers : m.buffers.getD [] with
  | nil =>
    refine ⟨fun ⟨_, h⟩ => ?_, fun h => ?_⟩
    · cases h
    · obtain ⟨b, rest, present, -⟩ := h.sentinel
      simp [present] at buffers
  | cons sentinel others =>
    have table := eq_some_of_getD_eq_cons buffers
    cases subgraphs : m.subgraphs.getD [] with
    | nil =>
      refine ⟨fun ⟨_, h⟩ => ?_, fun h => ?_⟩
      · obtain ⟨-, h⟩ := then_ok_iff.1 h
        cases h
      · obtain ⟨s, rest, present⟩ := h.nonempty
        simp [present] at subgraphs
    | cons first rest =>
      have each : forEachIndexed (first :: rest) (Subgraph.checkReferences (others.length + 1)
          (m.operatorCodes.getD []).length) = .ok () ↔ ∀ s ∈ first :: rest,
            s.WellFormed (others.length + 1) (m.operatorCodes.getD []).length :=
        forEachIndexed_ok_iff_forall_mem fun _ _ => Subgraph.checkReferences_ok_iff
      simp only [then_ok_iff, require_ok_iff, Buffer.isEmpty_iff, each]
      constructor
      · rintro ⟨version, empty, each⟩
        refine ⟨version, ⟨sentinel, others, table, empty⟩,
          ⟨first, rest, eq_some_of_getD_eq_cons subgraphs⟩, ?_⟩
        simpa only [buffers, subgraphs, List.length_cons] using each
      · rintro ⟨version, ⟨b, bs, present, empty⟩, -, each⟩
        cases present.symm.trans table
        refine ⟨version, empty, ?_⟩
        simpa only [buffers, subgraphs, List.length_cons] using each

theorem File.accept_ok_iff {file : File} {m : Model} :
    file.accept = .ok m ↔ file.hasIdentifier = true ∧ file.root = .ok m ∧ m.WellFormed := by
  unfold File.accept
  cases marked : file.hasIdentifier with
  | false => simp [throw, throwThe, MonadExceptOf.throw, bind, Except.bind]
  | true =>
    simp only [Bool.not_true, Bool.false_eq_true, if_false, Sequencing.bind_ok_iff,
      Sequencing.mapError_ok_iff, true_and]
    constructor
    · rintro ⟨n, root, _, fine, same⟩
      cases same
      exact ⟨root, Model.checkReferences_ok_iff.1 fine⟩
    · rintro ⟨root, fine⟩
      exact ⟨m, root, (), Model.checkReferences_ok_iff.2 fine, rfl⟩

theorem verify_ok_iff {bytes : List UInt8} :
    verify bytes = .ok () ↔ ∃ m, File.accept bytes.toArray = .ok m := by
  unfold verify
  rw [Sequencing.bind_ok_iff]
  exact ⟨fun ⟨m, h, _⟩ => ⟨m, h⟩, fun ⟨m, h⟩ => ⟨m, h, rfl⟩⟩

theorem File.content?_of_root {file : File} {m : Model} (h : file.root = .ok m) :
    file.content? = some m := by
  obtain ⟨_, -, h⟩ := Sequencing.bind_ok_iff.1 h
  split at h
  next found =>
    cases h
    exact found
  next => cases h

theorem verify_error_iff {bytes : List UInt8} {fault : VerificationFault} :
    verify bytes = .error fault ↔ File.accept bytes.toArray = .error fault := by
  unfold verify
  cases File.accept bytes.toArray <;> simp [bind, Except.bind, pure, Except.pure]

theorem Summary.ofBytes_of_rejected {bytes : List UInt8} {fault : VerificationFault}
    (h : verify bytes = .error fault) : Summary.ofBytes bytes = .error fault := by
  rw [Summary.ofBytes, Summary.ofFile, verify_error_iff.1 h]
  rfl

theorem Summary.ofBytes_ok_iff {bytes : List UInt8} {s : Summary} :
    Summary.ofBytes bytes = .ok s ↔ ∃ m g rest, File.accept bytes.toArray = .ok m ∧
      m.subgraphs = some (g :: rest) ∧ s = Summary.ofModel m g := by
  unfold Summary.ofBytes Summary.ofFile
  rw [Sequencing.bind_ok_iff]
  constructor
  · rintro ⟨m, accepted, h⟩
    obtain ⟨g, rest, present⟩ := (File.accept_ok_iff.1 accepted).2.2.nonempty
    simp only [present, Option.getD_some] at h
    cases h
    exact ⟨m, g, rest, accepted, present, rfl⟩
  · rintro ⟨m, g, rest, accepted, present, rfl⟩
    exact ⟨m, accepted, by simp only [present, Option.getD_some]; rfl⟩

theorem Summary.exists_of_verify {bytes : List UInt8} (h : verify bytes = .ok ()) :
    ∃ s, Summary.ofBytes bytes = .ok s := by
  obtain ⟨m, accepted⟩ := verify_ok_iff.1 h
  obtain ⟨g, rest, present⟩ := (File.accept_ok_iff.1 accepted).2.2.nonempty
  exact ⟨_, Summary.ofBytes_ok_iff.2 ⟨m, g, rest, accepted, present, rfl⟩⟩

def Summary.HasTensor (s : Summary) (i : Int32) : Prop :=
  i = -1 ∨ (0 ≤ i.toInt ∧ ∃ t, s.tensors[i.toInt.toNat]? = some t)

structure Summary.Resolves (s : Summary) : Prop where
  buffers : ∀ t ∈ s.tensors, ∃ size, s.bufferSizes[t.buffer.toNat]? = some size
  inputs : ∀ i ∈ s.inputs, s.HasTensor i
  outputs : ∀ i ∈ s.outputs, s.HasTensor i
  codes : ∀ o ∈ s.operators, ∃ code, s.operatorCodes[o.codeIndex.toNat]? = some code ∧
    o.kind = OperatorKind.ofCode? code
  operands : ∀ o ∈ s.operators, ∀ i ∈ o.inputs ++ o.outputs, s.HasTensor i

theorem Summary.hasTensor_of_inTensors {m : Model} {g : Subgraph} {indices : List Int32}
    (h : InTensors g.tensorCount indices) : ∀ i ∈ indices, (Summary.ofModel m g).HasTensor i := by
  intro i member
  rcases h i member with none | ⟨positive, below⟩
  · exact .inl none
  · have inside : i.toInt.toNat < (Summary.ofModel m g).tensors.length := by
      simp only [Summary.ofModel, List.length_map]
      unfold Subgraph.tensorCount at below
      omega
    exact .inr ⟨positive, _, List.getElem?_eq_getElem inside⟩

theorem Summary.resolves_ofModel {m : Model} {g : Subgraph}
    (h : g.WellFormed (m.buffers.getD []).length (m.operatorCodes.getD []).length) :
    (Summary.ofModel m g).Resolves where
  buffers := by
    intro t member
    obtain ⟨entry, there, rfl⟩ := List.mem_map.1 member
    have below : entry.buffer.toNat < (Summary.ofModel m g).bufferSizes.length := by
      simpa [Summary.ofModel] using h.buffers entry there
    exact ⟨_, List.getElem?_eq_getElem below⟩
  inputs := Summary.hasTensor_of_inTensors h.inputs
  outputs := Summary.hasTensor_of_inTensors h.outputs
  codes := by
    intro o member
    obtain ⟨entry, there, rfl⟩ := List.mem_map.1 member
    obtain ⟨below, -⟩ := h.operators entry there
    have below : entry.codeIndex.toNat < (Summary.ofModel m g).operatorCodes.length := by
      simpa [Summary.ofModel] using below
    have found := List.getElem?_eq_getElem below
    refine ⟨_, found, ?_⟩
    simp only [Summary.ofModel] at found
    simp only [Summary.ofOperator, found, Option.bind_some, Summary.ofModel]
  operands := by
    intro o member i operand
    obtain ⟨entry, there, rfl⟩ := List.mem_map.1 member
    obtain ⟨-, inputs, outputs⟩ := h.operators entry there
    rcases List.mem_append.1 operand with operand | operand
    · exact Summary.hasTensor_of_inTensors inputs i operand
    · exact Summary.hasTensor_of_inTensors outputs i operand

/-- Bytes have a summary just when they are verified, and that is when they carry the identifier,
their structure is sound and their content is well formed. -/
theorem accepted_iff_wellFormed (bytes : List UInt8) :
    ((∃ s, Summary.ofBytes bytes = .ok s) ↔ verify bytes = .ok ()) ∧
      (verify bytes = .ok () ↔ File.hasIdentifier bytes.toArray = true ∧
        ∃ m, File.root bytes.toArray = .ok m ∧ m.WellFormed) ∧
      ∀ s, Summary.ofBytes bytes = .ok s → s.Resolves := by
  refine ⟨?_, ?_, fun s made => ?_⟩
  · rw [verify_ok_iff]
    constructor
    · rintro ⟨s, made⟩
      obtain ⟨m, _, _, accepted, -⟩ := Summary.ofBytes_ok_iff.1 made
      exact ⟨m, accepted⟩
    · rintro ⟨m, accepted⟩
      obtain ⟨g, rest, present⟩ := (File.accept_ok_iff.1 accepted).2.2.nonempty
      exact ⟨_, Summary.ofBytes_ok_iff.2 ⟨m, g, rest, accepted, present, rfl⟩⟩
  · simp only [verify_ok_iff, File.accept_ok_iff]
    exact ⟨fun ⟨m, marked, fine⟩ => ⟨marked, m, fine⟩, fun ⟨marked, m, fine⟩ => ⟨m, marked, fine⟩⟩
  · obtain ⟨m, g, rest, accepted, present, rfl⟩ := Summary.ofBytes_ok_iff.1 made
    obtain ⟨-, -, fine⟩ := File.accept_ok_iff.1 accepted
    exact Summary.resolves_ofModel (fine.subgraphs g (by simp [present]))

end LiteModel.Container
