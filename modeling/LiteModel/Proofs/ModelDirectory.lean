import LiteModel.Proofs.Graph.Buffers
import LiteModel.Proofs.Manifest
import LiteModel.Proofs.Weights.Archive

/-! Loading a directory against making the graph from weights at hand. The weights that a directory
supplies are those of the tensors that its manifest declares with data, each as the archive has it;
made from them, the graph is the loaded one but for the ids of the storages, which both sides choose
for themselves. Whatever else the archive has is never looked at. -/
namespace LiteModel

open Sequencing

theorem Files.Reader.text_of_string {read : Reader} {path s : String}
    (h : read path = .ok s.toByteArray.data.toList) : read.text path = .ok s := by
  unfold Reader.text
  rw [h]
  dsimp only [bind, Except.bind]
  rw [Array.toArray_toList]
  simp only [String.fromUTF8?, s.isValidUTF8, dif_pos]
  rfl

/-- No two names have a storage in common. -/
def Weights.Separate (w : Weights) : Prop := ∀ a b x y s t, w.find? a = some x →
  w.find? b = some y → x.storage = some s → y.storage = some t → s.id = t.id → a = b

namespace Archive

variable {a : Archive} {name : String} {x : Tensor} {id : BufferId}

def Gives (a : Archive) (name : String) (x : Tensor) : Prop :=
  ∃ type dims bytes, a.stored? name = some (type, dims, bytes) ∧
    type.elementType? = some x.elementType ∧ x.shape = ⟨dims⟩ ∧ x.bytes? = some bytes

theorem gives_of_tensor (sound : a.Sound) (h : a.tensor id name = .ok x) :
    a.Gives name x ∧ ∃ s, x.storage = some s ∧ s.id = id := by
  rw [sound.tensor_eq, restore_ok_iff] at h
  obtain ⟨type, dims, bytes, t, stored, known, rfl⟩ := h
  exact ⟨⟨type, dims, bytes, stored, known, rfl, rfl⟩, _, rfl, rfl⟩

theorem Gives.tensor (sound : a.Sound) (h : a.Gives name x) (id : BufferId) :
    ∃ y, a.tensor id name = .ok y ∧ ∃ s, x.storage = some s ∧
      ∀ f, f id = s.id → x = y.rebuffer f := by
  obtain ⟨type, dims, bytes, stored, known, shape, data⟩ := h
  obtain ⟨s, storage, rfl⟩ := Option.map_eq_some_iff.1 data
  refine ⟨⟨⟨dims⟩, x.elementType, some (.ofBytes id s.bytes)⟩, ?_, s, storage, fun f same => ?_⟩
  · rw [sound.tensor_eq, restore_ok_iff]
    exact ⟨type, dims, s.bytes, x.elementType, stored, known, rfl⟩
  · cases x
    cases shape
    cases storage
    have content : s = { Storage.ofBytes id s.bytes with id := f id } := Storage.ext same.symm rfl
    simp [Tensor.rebuffer, ← content]

end Archive

namespace Manifest

variable {m : Manifest}

theorem ofFile_ok_iff {read : Files.Reader} {path : String} : Manifest.ofFile read path = .ok m ↔
    ∃ text, read.text path = .ok text ∧ Manifest.ofJson text = .ok m := by
  simp only [Manifest.ofFile, bind_ok_iff, mapError_ok_iff]

theorem mem_stored_iff {d : TensorDeclaration} :
    d ∈ m.stored ↔ d ∈ m.tensors ∧ d.data = .safetensors := by
  rw [stored, List.mem_filter, beq_iff_eq]

theorem needsWeights_iff : m.needsWeights = true ↔ m.stored ≠ [] := by
  simp [needsWeights, stored, List.filter_eq_nil_iff]

def storedNames (m : Manifest) : List String := m.stored.map (·.name)

theorem mem_storedNames {d : TensorDeclaration} (declared : d ∈ m.stored) :
    d.name ∈ m.storedNames :=
  List.mem_map_of_mem declared

theorem Consistent.distinctStored (h : m.Consistent) : m.storedNames.Nodup :=
  h.distinctTensors.sublist (List.filter_sublist.map _)

end Manifest

namespace ModelDirectory

variable {read read' : Files.Reader} {directory : String} {m : Manifest} {v w : Weights}

/-- The weights have, for each tensor that is declared with data, what the archive of the directory
has under its name, and nothing else. -/
structure Supplies (read : Files.Reader) (directory : String) (m : Manifest) (w : Weights) :
    Prop where
  stored : m.stored ≠ [] → ∃ a, readArchive read (weightsPath directory) = .ok a ∧
    ∀ d ∈ m.stored, ∃ x, w.find? d.name = some x ∧ a.Gives d.name x
  only : ∀ name, name ∉ m.storedNames → w.find? name = none

theorem sound_of_readArchive {path : String} {a : Archive} (h : readArchive read path = .ok a) :
    a.Sound := by
  unfold readArchive at h
  split at h
  next => exact Archive.sound_of_ofBytes (mapError_ok_iff.1 h)
  next => cases h
  next => cases h

theorem supplies_of_readWeights (consistent : m.Consistent)
    (h : readWeights read directory m = .ok w) : Supplies read directory m w ∧
      ∀ name x s, w.find? name = some x → x.storage = some s →
        m.storedNames[s.id.number]? = some name := by
  obtain ⟨a, opened, given⟩ := bind_ok_iff.1 h
  obtain ⟨each, only⟩ := Archive.find?_of_weights consistent.distinctStored given
  have sound := sound_of_readArchive opened
  refine ⟨⟨fun _ => ⟨a, opened, fun d declared => ?_⟩, only⟩, fun name x s found storage => ?_⟩
  · obtain ⟨k, place⟩ := List.getElem?_of_mem (Manifest.mem_storedNames declared)
    obtain ⟨x, here, found⟩ := each k d.name place
    exact ⟨x, found, (Archive.gives_of_tensor sound here).1⟩
  · have member : name ∈ m.storedNames := by
      by_contra absent
      cases (only name absent).symm.trans found
    obtain ⟨k, place⟩ := List.getElem?_of_mem member
    obtain ⟨y, here, again⟩ := each k name place
    cases found.symm.trans again
    obtain ⟨-, t, kept, numbered⟩ := Archive.gives_of_tensor sound here
    cases storage.symm.trans kept
    rw [numbered]
    exact place

theorem exists_readWeights (h : Supplies read directory m w) (needed : m.stored ≠ []) :
    ∃ v, readWeights read directory m = .ok v := by
  obtain ⟨a, opened, each⟩ := h.stored needed
  have sound := sound_of_readArchive opened
  have readable : ∀ name ∈ m.storedNames, ∀ id, ∃ x, a.tensor id name = .ok x := by
    intro name member id
    obtain ⟨d, declared, rfl⟩ := List.mem_map.1 member
    obtain ⟨x, -, gives⟩ := each d declared
    obtain ⟨y, here, -⟩ := gives.tensor sound id
    exact ⟨y, here⟩
  obtain ⟨v, given⟩ := Archive.exists_weights readable
  exact ⟨v, bind_ok_iff.2 ⟨a, opened, given⟩⟩

/-- The id that the storage has in other weights, for storages that are numbered by names. -/
def bufferIn (names : List String) (w : Weights) (b : BufferId) : BufferId :=
  ((names[b.number]?.bind w.find?).bind (·.storage)).elim b (·.id)

theorem bufferIn_eq {names : List String} {b : BufferId} {name : String} {x : Tensor} {s : Storage}
    (place : names[b.number]? = some name) (found : w.find? name = some x)
    (storage : x.storage = some s) : bufferIn names w b = s.id := by
  simp [bufferIn, place, found, storage]

theorem find?_eq_rebuffer (consistent : m.Consistent) (h : Supplies read directory m w)
    (given : readWeights read directory m = .ok v) {d : TensorDeclaration}
    (declared : d ∈ m.stored) : w.find? d.name =
      (v.find? d.name).map (Tensor.rebuffer (bufferIn m.storedNames w)) := by
  obtain ⟨a, opened, each⟩ := h.stored (List.ne_nil_of_mem declared)
  obtain ⟨b, reopened, given⟩ := bind_ok_iff.1 given
  cases opened.symm.trans reopened
  obtain ⟨x, found, gives⟩ := each d declared
  obtain ⟨k, place⟩ := List.getElem?_of_mem (Manifest.mem_storedNames declared)
  obtain ⟨y, here, kept⟩ :=
    (Archive.find?_of_weights consistent.distinctStored given).1 k d.name place
  obtain ⟨z, again, s, storage, same⟩ := gives.tensor (sound_of_readArchive opened) ⟨k⟩
  cases here.symm.trans again
  rw [kept, Option.map_some, found, same _ (bufferIn_eq place found storage)]

theorem exists_supplied (consistent : m.Consistent) (h : Supplies read directory m w)
    (given : readWeights read directory m = .ok v) {name : String} {x : Tensor} {s : Storage}
    (found : v.find? name = some x) (storage : x.storage = some s) :
    ∃ y r, w.find? name = some y ∧ y.storage = some r ∧ bufferIn m.storedNames w s.id = r.id := by
  obtain ⟨-, numbered⟩ := supplies_of_readWeights consistent given
  obtain ⟨d, declared, rfl⟩ :=
    List.mem_map.1 (List.mem_of_getElem? (numbered name x s found storage))
  have here := find?_eq_rebuffer consistent h given declared
  rw [found, Option.map_some] at here
  have kept : (x.rebuffer (bufferIn m.storedNames w)).storage =
      some { s with id := bufferIn m.storedNames w s.id } := by
    simp [Tensor.rebuffer, storage]
  exact ⟨_, _, here, kept, rfl⟩

theorem bufferIn_inj (consistent : m.Consistent) (h : Supplies read directory m w)
    (given : readWeights read directory m = .ok v) (separate : w.Separate) {name other : String}
    {x y : Tensor} {s t : Storage} (foundX : v.find? name = some x) (hasX : x.storage = some s)
    (foundY : v.find? other = some y) (hasY : y.storage = some t)
    (same : bufferIn m.storedNames w s.id = bufferIn m.storedNames w t.id) : s.id = t.id := by
  obtain ⟨_, _, hereX, keptX, idX⟩ := exists_supplied consistent h given foundX hasX
  obtain ⟨_, _, hereY, keptY, idY⟩ := exists_supplied consistent h given foundY hasY
  obtain rfl := separate _ _ _ _ _ _ hereX hereY keptX keptY (idX.symm.trans (same.trans idY))
  -- one name has one place
  obtain ⟨-, numbered⟩ := supplies_of_readWeights consistent given
  have place := numbered _ _ _ foundX hasX
  obtain ⟨below, -⟩ := List.getElem?_eq_some_iff.1 place
  have numbers : s.id.number = t.id.number := (List.getElem?_inj below consistent.distinctStored).1
    (place.trans (numbered _ _ _ foundY hasY).symm)
  exact congrArg BufferId.mk numbers

theorem exists_weights (consistent : m.Consistent) (h : Supplies read directory m w) :
    ∃ v f, (if m.needsWeights then readWeights read directory m else .ok {}) = .ok v ∧
      (∀ d ∈ m.tensors, d.data = .safetensors →
        w.find? d.name = (v.find? d.name).map (Tensor.rebuffer f)) ∧
      (w.Separate → ∀ a b x y s t, v.find? a = some x → x.storage = some s →
        v.find? b = some y → y.storage = some t → f s.id = f t.id → s.id = t.id) := by
  by_cases needed : m.needsWeights = true
  · obtain ⟨v, given⟩ := exists_readWeights h (Manifest.needsWeights_iff.1 needed)
    refine ⟨v, bufferIn m.storedNames w, by rw [if_pos needed, given], fun d declared data => ?_,
      fun separate a b x y s t foundX hasX foundY hasY => ?_⟩
    · exact find?_eq_rebuffer consistent h given (Manifest.mem_stored_iff.2 ⟨declared, data⟩)
    · exact bufferIn_inj consistent h given separate foundX hasX foundY hasY
  · refine ⟨{}, id, by rw [if_neg needed], fun d declared data => ?_, fun _ => nofun⟩
    -- no tensor is declared with data
    have none : m.stored = [] := not_not.1 (Manifest.needsWeights_iff.not.1 needed)
    exact absurd (Manifest.mem_stored_iff.2 ⟨declared, data⟩) (none ▸ List.not_mem_nil)

theorem load_eq (parsed : Manifest.ofFile read (manifestPath directory) = .ok m) :
    load read directory = m.validate.mapError (fun fault => .model (.manifest fault)) >>= fun _ =>
      (if m.needsWeights then readWeights read directory m else .ok {}) >>= fun w =>
        (m.toGraph w).mapError .model := by
  rw [load, parsed]
  dsimp only [bind, Except.bind]
  cases m.needsWeights <;> rfl

/-- Loading is making the graph from whatever weights the directory supplies, up to ids. -/
theorem load_rebuffer (parsed : Manifest.ofFile read (manifestPath directory) = .ok m)
    (h : Supplies read directory m w) : ∃ f,
      (load read directory).map (FinalizedGraph.rebuffer f) = (m.toGraph w).mapError .model ∧
        (w.Separate → ∀ g, load read directory = .ok g → g.graph.KeepsApart f) := by
  have loaded := load_eq parsed
  cases valid : m.validate with
  | error fault =>
    rw [valid] at loaded
    refine ⟨id, ?_, fun _ g done => by cases loaded.symm.trans done⟩
    rw [loaded, Manifest.toGraph, valid]
    rfl
  | ok =>
    obtain ⟨v, f, given, same, apart⟩ := exists_weights (Manifest.consistent_of_validate valid) h
    rw [valid, given] at loaded
    have loaded : load read directory = (m.toGraph v).mapError .model := loaded
    refine ⟨f, ?_, fun separate g done => ?_⟩
    · rw [loaded, Manifest.toGraph_rebuffer same]
      cases m.toGraph v <;> rfl
    · have builds := Manifest.builds_of_toGraph (mapError_ok_iff.1 (loaded.symm.trans done))
      intro a b s t first second
      obtain ⟨c, first⟩ := builds.storage?_eq first
      obtain ⟨d, second⟩ := builds.storage?_eq second
      obtain ⟨-, x, foundX, hasX⟩ := Manifest.storageOf_eq_some_iff.1 first
      obtain ⟨-, y, foundY, hasY⟩ := Manifest.storageOf_eq_some_iff.1 second
      exact apart separate _ _ _ _ _ _ foundX hasX foundY hasY

theorem supplies_of_load {g : FinalizedGraph} (h : load read directory = .ok g) :
    ∃ m w, Manifest.ofFile read (manifestPath directory) = .ok m ∧ m.validate = .ok () ∧
      Supplies read directory m w ∧ m.toGraph w = .ok g := by
  have steps := h
  rw [load] at steps
  obtain ⟨m, parsed, -⟩ := bind_ok_iff.1 steps
  simp only [load_eq parsed, bind_ok_iff, mapError_ok_iff] at h
  obtain ⟨_, valid, w, given, built⟩ := h
  refine ⟨m, w, parsed, valid, ?_, built⟩
  by_cases needed : m.needsWeights = true
  · rw [if_pos needed] at given
    exact (supplies_of_readWeights (Manifest.consistent_of_validate valid) given).1
  · rw [if_neg needed] at given
    cases given
    exact ⟨fun stored => absurd (Manifest.needsWeights_iff.2 stored) needed, fun _ _ => rfl⟩

theorem load_congr (parsed : Manifest.ofFile read (manifestPath directory) = .ok m)
    (same : read' (manifestPath directory) = read (manifestPath directory))
    (agree : m.stored ≠ [] → ∃ a b, readArchive read (weightsPath directory) = .ok a ∧
      readArchive read' (weightsPath directory) = .ok b ∧
        ∀ d ∈ m.stored, a.stored? d.name = b.stored? d.name) :
    load read' directory = load read directory := by
  have parsed' : Manifest.ofFile read' (manifestPath directory) = .ok m := by
    rwa [Manifest.ofFile, Files.Reader.text, same]
  rw [load_eq parsed, load_eq parsed']
  by_cases needed : m.needsWeights = true
  · obtain ⟨a, b, opened, opened', alike⟩ := agree (Manifest.needsWeights_iff.1 needed)
    have weights : a.weights m.storedNames = b.weights m.storedNames := by
      refine Archive.weights_congr (sound_of_readArchive opened) (sound_of_readArchive opened') ?_
      intro name member
      obtain ⟨d, declared, rfl⟩ := List.mem_map.1 member
      exact alike d declared
    have given : readWeights read' directory m = readWeights read directory m := by
      rw [readWeights, readWeights, opened, opened']
      exact weights.symm
    rw [given]
  · rw [if_neg needed, if_neg needed]

/-- A directory loads just when its manifest passes its rules and makes a graph with the weights
that the directory supplies. The graph is then the one made from them, but for the ids of storages,
and a failure is the same too. Nothing of the archive counts but what it has for the tensors that
are declared with data, and nothing at all if there are none. -/
theorem load_eq_toGraph (read : Files.Reader) (directory : String) :
    ((∃ g, load read directory = .ok g) ↔
      ∃ m w g, Manifest.ofFile read (manifestPath directory) = .ok m ∧ m.validate = .ok () ∧
        Supplies read directory m w ∧ m.toGraph w = .ok g) ∧
    (∀ m w, Manifest.ofFile read (manifestPath directory) = .ok m →
      Supplies read directory m w → ∃ f,
        (load read directory).map (FinalizedGraph.rebuffer f) = (m.toGraph w).mapError .model ∧
          (w.Separate → ∀ g, load read directory = .ok g → g.graph.KeepsApart f)) ∧
    (∀ m (read' : Files.Reader), Manifest.ofFile read (manifestPath directory) = .ok m →
      read' (manifestPath directory) = read (manifestPath directory) →
      (m.stored ≠ [] → ∃ a b, readArchive read (weightsPath directory) = .ok a ∧
        readArchive read' (weightsPath directory) = .ok b ∧
          ∀ d ∈ m.stored, a.stored? d.name = b.stored? d.name) →
      load read' directory = load read directory) := by
  refine ⟨⟨?_, ?_⟩, fun m w => load_rebuffer, fun m read' => load_congr⟩
  · rintro ⟨g, done⟩
    obtain ⟨m, w, parsed, valid, supplies, built⟩ := supplies_of_load done
    exact ⟨m, w, g, parsed, valid, supplies, built⟩
  · rintro ⟨m, w, g, parsed, -, supplies, built⟩
    obtain ⟨f, renamed, -⟩ := load_rebuffer parsed supplies
    cases done : load read directory with
    | ok loaded => exact ⟨loaded, rfl⟩
    | error e =>
      rw [done, built] at renamed
      cases renamed

end ModelDirectory

end LiteModel
