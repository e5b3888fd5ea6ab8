import LiteModel.Proofs.Graph

/-! Why a graph breaks the rules. The fault that is reported is there: it is that of a layer after
layers that were all admitted, and so a statement about the layers up to this one alone. -/
namespace LiteModel.Graph

open Sequencing

inductive Breaks (g : Graph) (p : Progress) (l : Layer) : LayerFault → Prop where
  | duplicateName : l.name ∈ p.names → g.Breaks p l .duplicateName
  | unknownVariable {id : VariableId} : id ∈ l.references → g.hasVariable id = false →
    g.Breaks p l (.unknownVariable id)
  | inputNotProduced {id : VariableId} : id ∈ l.inputs → id ∉ p.available →
    g.Breaks p l (.inputNotProduced (g.nameOf id))
  | zeroElements {id : VariableId} : id ∈ l.inputs ++ l.outputs → g.isInitialized id = false →
    g.Breaks p l (.zeroElements (g.nameOf id))
  | producedTwice {id : VariableId} : id ∈ l.outputs → id ∈ p.produced ∨ 2 ≤ l.outputs.count id →
    g.Breaks p l (.producedTwice (g.nameOf id))

/-- A fault that a graph has. -/
inductive Refuses (g : Graph) : GraphError → Prop where
  | noLayers : g.layers = [] → g.Refuses .noLayers
  | oversizedTensor {v : Variable} : v ∈ g.arena.toList → isOversized v = true →
    g.Refuses (.oversizedTensor v.name v.tensor.shape)
  | noSuchEndpoint {id : VariableId} : id ∈ g.inputs ++ g.outputs → g.hasVariable id = false →
    g.Refuses (.noSuchEndpoint id)
  | invalidLayer {before after : List Layer} {l : Layer} {fault : LayerFault} :
    g.layers = before ++ l :: after → g.AdmitsAll { available := g.inputs } before →
    g.Breaks (before.foldl Progress.after { available := g.inputs }) l fault →
    g.Refuses (.invalidLayer l.name fault)

variable {g : Graph} {p : Progress} {l : Layer} {layers : List Layer}

theorem mem_names_foldl {name : String} : name ∈ (layers.foldl Progress.after p).names ↔
    name ∈ p.names ∨ ∃ l ∈ layers, l.name = name := by
  induction layers generalizing p with
  | nil => simp
  | cons l rest ih =>
    rw [List.foldl_cons, ih, List.exists_mem_cons_iff, Progress.after, List.mem_cons, or_assoc,
      or_left_comm, eq_comm]

theorem mem_available_foldl {id : VariableId} :
    id ∈ (layers.foldl Progress.after p).available ↔
      id ∈ p.available ∨ id ∈ layers.flatMap (·.outputs) := by
  induction layers generalizing p with
  | nil => simp
  | cons l rest ih =>
    rw [List.foldl_cons, ih, Progress.after, List.flatMap_cons, List.mem_append, List.mem_append,
      or_assoc, or_left_comm]

theorem mem_produced_foldl {id : VariableId} :
    id ∈ (layers.foldl Progress.after p).produced ↔
      id ∈ p.produced ∨ id ∈ layers.flatMap (·.outputs) := by
  induction layers generalizing p with
  | nil => simp
  | cons l rest ih =>
    rw [List.foldl_cons, ih, Progress.after, List.flatMap_cons, List.mem_append, List.mem_append,
      or_assoc, or_left_comm]

theorem firstRepeat?_eq_some {seen ids : List VariableId} {id : VariableId}
    (h : firstRepeat? seen ids = some id) : id ∈ ids ∧ (id ∈ seen ∨ 2 ≤ ids.count id) := by
  induction ids generalizing seen with
  | nil => cases h
  | cons first rest ih =>
    rw [firstRepeat?] at h
    split at h
    next again =>
      cases h
      exact ⟨List.mem_cons_self, .inl (by simpa using again)⟩
    next =>
      obtain ⟨later, before⟩ := ih h
      refine ⟨List.mem_cons_of_mem first later, ?_⟩
      rcases before with before | twice
      · rcases List.mem_cons.1 before with rfl | before
        · -- it is the first of the list, and once more further on
          have more : 0 < rest.count id := List.count_pos_iff.2 later
          right
          rw [List.count_cons_self]
          omega
        · exact .inl before
      · exact .inr (Nat.le_trans twice List.count_le_count_cons)

theorem breaks_of_layerFault? {fault : LayerFault} (h : g.layerFault? p l = some fault) :
    g.Breaks p l fault := by
  unfold layerFault? at h
  split at h
  next taken =>
    cases h
    exact .duplicateName (by simpa using taken)
  next =>
  split at h
  next id missing =>
    cases h
    exact .unknownVariable (List.mem_of_find?_eq_some missing)
      (by simpa using List.find?_some missing)
  next =>
  split at h
  next id early =>
    cases h
    exact .inputNotProduced (List.mem_of_find?_eq_some early) (by simpa using List.find?_some early)
  next =>
  split at h
  next id empty =>
    cases h
    exact .zeroElements (List.mem_of_find?_eq_some empty) (by simpa using List.find?_some empty)
  next =>
    obtain ⟨id, again, rfl⟩ := Option.map_eq_some_iff.1 h
    obtain ⟨output, before⟩ := firstRepeat?_eq_some again
    exact .producedTwice output before

theorem breaks_of_advance_error {e : GraphError} (h : g.advance p l = .error e) :
    ∃ fault, g.Breaks p l fault ∧ e = .invalidLayer l.name fault := by
  unfold advance at h
  split at h
  next fault found =>
    cases h
    exact ⟨fault, breaks_of_layerFault? found, rfl⟩
  next => cases h

theorem refuses_of_check {e : GraphError} (h : g.check = .error e) : g.Refuses e := by
  unfold check at h
  split at h
  next bare =>
    cases h
    exact .noLayers (by simpa using bare)
  next =>
  split at h
  next v large =>
    cases h
    exact .oversizedTensor (List.mem_of_find?_eq_some large) (List.find?_some large)
  next =>
  split at h
  next id missing =>
    cases h
    exact .noSuchEndpoint (List.mem_of_find?_eq_some missing)
      (by simpa using List.find?_some missing)
  next =>
    obtain ⟨before, l, after, q, order, passed, failed⟩ := foldlM_error_iff.1 h
    obtain ⟨admitted, rfl⟩ := foldlM_advance_ok_iff.1 passed
    obtain ⟨fault, broken, rfl⟩ := breaks_of_advance_error failed
    exact .invalidLayer order admitted broken

theorem finalize_error_iff {e : GraphError} : g.finalize = .error e ↔ g.check = .error e := by
  unfold finalize
  split
  next passed => simp [passed]
  next refused => simp [refused]

end LiteModel.Graph
