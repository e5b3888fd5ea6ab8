import LiteModel.Proofs.Graph
import LiteModel.Proofs.Shape

/-! The rules of a graph as one condition on the whole of it. Going through the layers with what was
declared so far comes to the same as comparing any two of them; the graph is kept as it is; and
wherever the rules stop, no read of the arena was beyond its end. -/
namespace LiteModel.Graph

open Sequencing

/-- The rules of a model graph, in no order. -/
structure Valid (g : Graph) : Prop where
  nonempty : g.layers ≠ []
  sized : ∀ v ∈ g.arena.toList, v.tensor.shape.byteCount v.tensor.elementType < 2 ^ 64
  endpoints : ∀ id ∈ g.inputs ++ g.outputs, id.position < g.arena.size
  distinct : (g.layers.map (·.name)).Nodup
  known : ∀ l ∈ g.layers, ∀ id ∈ l.references, id.position < g.arena.size
  /-- An input of a layer is one of the graph or an output of a layer further up. -/
  ready : ∀ (k : Nat) (l : Layer), g.layers[k]? = some l → ∀ id ∈ l.inputs,
    id ∈ g.inputs ∨ ∃ j < k, ∃ m : Layer, g.layers[j]? = some m ∧ id ∈ m.outputs
  once : (g.layers.flatMap (·.outputs)).Nodup
  nonzero : ∀ l ∈ g.layers, ∀ id ∈ l.inputs ++ l.outputs, ∀ v, g.lookup id = some v →
    0 ∉ v.tensor.shape.dims

variable {g : Graph} {p : Progress} {layers : List Layer}

theorem hasVariable_iff {id : VariableId} :
    g.hasVariable id = true ↔ id.position < g.arena.size := by
  simp [hasVariable]

theorem isOversized_eq_false_iff {v : Variable} :
    isOversized v = false ↔ v.tensor.shape.byteCount v.tensor.elementType < 2 ^ 64 := by
  have fits := Shape.isSome_byteSize?_iff (s := v.tensor.shape) (t := v.tensor.elementType)
  rw [isOversized, ← Option.not_isSome, Bool.not_eq_false']
  exact fits

theorem exists_lookup {id : VariableId} (known : g.hasVariable id = true) :
    ∃ v, g.lookup id = some v :=
  ⟨_, Array.getElem?_eq_getElem (hasVariable_iff.1 known)⟩

theorem isInitialized_iff {id : VariableId} {v : Variable} (there : g.lookup id = some v) :
    g.isInitialized id = true ↔ 0 ∉ v.tensor.shape.dims := by
  simp [isInitialized, there, Tensor.isInitialized, Shape.isEmpty]

namespace AdmitsAll

theorem fresh (h : g.AdmitsAll p layers) :
    (layers.map (·.name)).Nodup ∧ ∀ l ∈ layers, l.name ∉ p.names := by
  induction layers generalizing p with
  | nil => simp
  | cons l rest ih =>
    obtain ⟨distinct, apart⟩ := ih h.2
    have later : ∀ m ∈ rest, m.name ≠ l.name ∧ m.name ∉ p.names := by
      intro m member
      simpa [Progress.after] using apart m member
    rw [List.map_cons, List.nodup_cons, List.forall_mem_cons]
    refine ⟨⟨?_, distinct⟩, h.1.fresh, fun m member => (later m member).2⟩
    intro again
    obtain ⟨m, member, same⟩ := List.mem_map.1 again
    exact (later m member).1 same

theorem initialized (h : g.AdmitsAll p layers) :
    ∀ l ∈ layers, ∀ id ∈ l.inputs ++ l.outputs, g.isInitialized id = true := by
  induction layers generalizing p with
  | nil => simp
  | cons l rest ih => exact List.forall_mem_cons.2 ⟨h.1.initialized, ih h.2⟩

theorem intro (distinct : (layers.map (·.name)).Nodup) (fresh : ∀ l ∈ layers, l.name ∉ p.names)
    (known : ∀ l ∈ layers, ∀ id ∈ l.references, g.hasVariable id = true)
    (ready : ∀ (k : Nat) (l : Layer), layers[k]? = some l → ∀ id ∈ l.inputs,
      id ∈ p.available ∨ ∃ j < k, ∃ m : Layer, layers[j]? = some m ∧ id ∈ m.outputs)
    (initialized : ∀ l ∈ layers, ∀ id ∈ l.inputs ++ l.outputs, g.isInitialized id = true)
    (once : (layers.flatMap (·.outputs)).Nodup)
    (unproduced : ∀ id ∈ layers.flatMap (·.outputs), id ∉ p.produced) :
    g.AdmitsAll p layers := by
  induction layers generalizing p with
  | nil => trivial
  | cons l rest ih =>
    obtain ⟨alone, distinct⟩ := List.nodup_cons.1 distinct
    obtain ⟨freshNow, freshLater⟩ := List.forall_mem_cons.1 fresh
    obtain ⟨knownNow, knownLater⟩ := List.forall_mem_cons.1 known
    obtain ⟨initializedNow, initializedLater⟩ := List.forall_mem_cons.1 initialized
    rw [List.flatMap_cons] at once unproduced
    obtain ⟨onceNow, onceLater, apart⟩ := List.nodup_append.1 once
    refine ⟨⟨freshNow, knownNow, ?_, initializedNow, onceNow, ?_⟩, ih distinct ?_ knownLater ?_
      initializedLater onceLater ?_⟩
    · -- nothing is further up than the first layer
      intro id input
      rcases ready 0 l rfl id input with before | ⟨j, below, -⟩
      · exact before
      · exact absurd below (Nat.not_lt_zero j)
    · exact fun id output => unproduced id (List.mem_append_left _ output)
    · intro m member taken
      rcases List.mem_cons.1 taken with same | taken
      · exact alone (List.mem_map.2 ⟨m, member, same⟩)
      · exact freshLater m member taken
    · intro k m place id input
      rcases ready (k + 1) m place id input with before | ⟨j, below, n, there, output⟩
      · exact .inl (List.mem_append_right _ before)
      · cases j with
        | zero =>
          cases there
          exact .inl (List.mem_append_left _ output)
        | succ j => exact .inr ⟨j, Nat.lt_of_succ_lt_succ below, n, there, output⟩
    · intro id output before
      rcases List.mem_append.1 before with here | before
      · exact apart id here id output rfl
      · exact unproduced id (List.mem_append_right _ output) before

end AdmitsAll

theorem Accepted.valid (h : g.Accepted) : g.Valid where
  nonempty := h.nonempty
  sized v member := isOversized_eq_false_iff.1 (h.sized v member)
  endpoints id ending := hasVariable_iff.1 (h.endpoints id ending)
  distinct := h.layers.fresh.1
  known l layer id used := hasVariable_iff.1 (h.layers.known l layer id used)
  ready _ _ place := h.layers.ready place
  once := h.layers.once.1
  nonzero l layer id activation _ there :=
    (isInitialized_iff there).1 (h.layers.initialized l layer id activation)

theorem Valid.accepted (h : g.Valid) : g.Accepted where
  nonempty := h.nonempty
  sized v member := isOversized_eq_false_iff.2 (h.sized v member)
  endpoints id ending := hasVariable_iff.2 (h.endpoints id ending)
  layers := by
    have known : ∀ l ∈ g.layers, ∀ id ∈ l.references, g.hasVariable id = true :=
      fun l layer id used => hasVariable_iff.2 (h.known l layer id used)
    refine .intro h.distinct (by simp) known h.ready (fun l layer id activation => ?_) h.once
      (by simp)
    have used : id ∈ l.references := List.mem_append_left _ activation
    obtain ⟨v, there⟩ := exists_lookup (known l layer id used)
    exact (isInitialized_iff there).2 (h.nonzero l layer id activation v there)

theorem Accepted.check (h : g.Accepted) :
    g.check = .ok (g.layers.foldl Progress.after { available := g.inputs }) := by
  have filled : g.layers.isEmpty = false := by simpa using h.nonempty
  have sized : g.arena.toList.find? isOversized = none :=
    List.find?_eq_none.2 fun v member => by simp [h.sized v member]
  have endpoints : ((g.inputs ++ g.outputs).find? fun id => !g.hasVariable id) = none :=
    List.find?_eq_none.2 fun id ending => by simp [h.endpoints id ending]
  rw [Graph.check, filled, sized, endpoints]
  exact foldlM_advance_ok_iff.2 ⟨h.layers, rfl⟩

theorem check_ok_iff : (∃ q, g.check = .ok q) ↔ g.Valid := by
  constructor
  · rintro ⟨q, passed⟩
    exact (accepted_of_check passed).valid
  · intro h
    exact ⟨_, h.accepted.check⟩

theorem finalize_ok_iff : (∃ f, g.finalize = .ok f) ↔ ∃ q, g.check = .ok q := by
  constructor
  · rintro ⟨f, finalized⟩
    exact finalize_ok finalized ▸ f.accepted
  · rintro ⟨q, passed⟩
    exact ⟨⟨g, q, passed⟩, finalize_graph ⟨g, q, passed⟩⟩

def read (g : Graph) (id : VariableId) : Except VariableId Variable :=
  match g.lookup id with
  | some v => .ok v
  | none => .error id

/-- The fault of a layer, found with reads that fail beyond the end of the arena. -/
def readFault? (g : Graph) (p : Progress) (l : Layer) : Except VariableId (Option LayerFault) :=
  if p.names.contains l.name then .ok (some .duplicateName)
  else match l.references.find? fun id => !g.hasVariable id with
  | some id => .ok (some (.unknownVariable id))
  | none =>
  match l.inputs.find? fun id => !p.available.contains id with
  | some id => (g.read id).map fun v => some (.inputNotProduced v.name)
  | none => do
  match ← (l.inputs ++ l.outputs).findM? fun id =>
      (g.read id).map fun v => !v.tensor.isInitialized with
  | some id => (g.read id).map fun v => some (.zeroElements v.name)
  | none =>
  match firstRepeat? p.produced l.outputs with
  | some id => (g.read id).map fun v => some (.producedTwice v.name)
  | none => .ok none

def readLayers (g : Graph) (p : Progress) :
    List Layer → Except VariableId (Except GraphError Progress)
  | [] => .ok (.ok p)
  | l :: rest => do
    match ← g.readFault? p l with
    | some fault => .ok (.error (.invalidLayer l.name fault))
    | none => g.readLayers (p.after l) rest

/-- The rules, gone through with such reads. At the end the outputs of the graph that nothing gives
are looked up once more, to be warned of. -/
def readCheck (g : Graph) : Except VariableId (Except GraphError Progress) :=
  if g.layers.isEmpty then .ok (.error .noLayers)
  else match g.arena.toList.find? isOversized with
  | some v => .ok (.error (.oversizedTensor v.name v.tensor.shape))
  | none =>
  match (g.inputs ++ g.outputs).find? fun id => !g.hasVariable id with
  | some id => .ok (.error (.noSuchEndpoint id))
  | none => do
  match ← g.readLayers { available := g.inputs } g.layers with
  | .error e => .ok (.error e)
  | .ok p => do
    let _ ← (g.outputs.filter fun id => !p.available.contains id).mapM g.read
    return .ok p

section Reads

variable {id : VariableId} {ids : List VariableId}

theorem read_map (known : g.hasVariable id = true) (fault : String → LayerFault) :
    ((g.read id).map fun v => some (fault v.name)) = .ok (some (fault (g.nameOf id))) := by
  obtain ⟨v, there⟩ := exists_lookup known
  simp [read, nameOf, there, Except.map]

theorem mapM_read (known : ∀ id ∈ ids, g.hasVariable id = true) :
    ∃ vs, ids.mapM g.read = .ok vs := by
  induction ids with
  | nil => exact ⟨[], rfl⟩
  | cons id rest ih =>
    obtain ⟨now, later⟩ := List.forall_mem_cons.1 known
    obtain ⟨v, there⟩ := exists_lookup now
    obtain ⟨vs, others⟩ := ih later
    refine ⟨v :: vs, ?_⟩
    rw [List.mapM_cons, others, read, there]
    rfl

theorem findM?_read (known : ∀ id ∈ ids, g.hasVariable id = true) :
    (ids.findM? fun id => (g.read id).map fun v => !v.tensor.isInitialized) =
      .ok (ids.find? fun id => !g.isInitialized id) := by
  induction ids with
  | nil => rfl
  | cons id rest ih =>
    obtain ⟨now, later⟩ := List.forall_mem_cons.1 known
    obtain ⟨v, there⟩ := exists_lookup now
    have first : ((g.read id).map fun v => !v.tensor.isInitialized) = .ok (!g.isInitialized id) := by
      simp [read, isInitialized, there, Except.map]
    rw [List.findM?, List.find?_cons, first, ih later]
    cases g.isInitialized id <;> rfl

theorem mem_of_firstRepeat? {seen : List VariableId} (h : firstRepeat? seen ids = some id) :
    id ∈ ids := by
  induction ids generalizing seen with
  | nil => cases h
  | cons first rest ih =>
    rw [firstRepeat?] at h
    split at h
    · cases h
      exact List.mem_cons_self
    · exact List.mem_cons_of_mem first (ih h)

theorem readFault?_eq (g : Graph) (p : Progress) (l : Layer) :
    g.readFault? p l = .ok (g.layerFault? p l) := by
  unfold readFault? layerFault?
  by_cases taken : p.names.contains l.name = true
  · rw [if_pos taken, if_pos taken]
  rw [if_neg taken, if_neg taken]
  cases found : l.references.find? fun id => !g.hasVariable id with
  | some id => rfl
  | none =>
    have known : ∀ id ∈ l.references, g.hasVariable id = true := by simpa using found
    have activation : ∀ id ∈ l.inputs ++ l.outputs, g.hasVariable id = true :=
      fun id used => known id (List.mem_append_left _ used)
    cases early : l.inputs.find? fun id => !p.available.contains id with
    | some id =>
      have input := List.mem_of_find?_eq_some early
      exact read_map (activation id (List.mem_append_left _ input)) .inputNotProduced
    | none =>
      dsimp only
      rw [findM?_read activation]
      cases empty : (l.inputs ++ l.outputs).find? fun id => !g.isInitialized id with
      | some id =>
        exact read_map (activation id (List.mem_of_find?_eq_some empty)) .zeroElements
      | none =>
        cases again : firstRepeat? p.produced l.outputs with
        | some id =>
          have output := mem_of_firstRepeat? again
          exact read_map (activation id (List.mem_append_right _ output)) .producedTwice
        | none => rfl

theorem readLayers_eq : g.readLayers p layers = .ok (layers.foldlM g.advance p) := by
  induction layers generalizing p with
  | nil => rfl
  | cons l rest ih =>
    rw [readLayers, readFault?_eq, List.foldlM_cons, advance]
    dsimp only [bind, Except.bind]
    cases g.layerFault? p l with
    | some fault => rfl
    | none => exact ih

theorem readCheck_eq (g : Graph) : g.readCheck = .ok g.check := by
  unfold readCheck check
  by_cases bare : g.layers.isEmpty = true
  · rw [if_pos bare, if_pos bare]
  rw [if_neg bare, if_neg bare]
  cases g.arena.toList.find? isOversized with
  | some v => rfl
  | none =>
    cases found : (g.inputs ++ g.outputs).find? fun id => !g.hasVariable id with
    | some id => rfl
    | none =>
      have known := List.find?_eq_none.1 found
      dsimp only
      rw [readLayers_eq]
      cases g.layers.foldlM g.advance { available := g.inputs } with
      | error e => rfl
      | ok q =>
        have outputs : ∀ id ∈ g.outputs.filter fun id => !q.available.contains id,
            g.hasVariable id = true := by
          intro id output
          simpa using known id (List.mem_append_right _ (List.mem_filter.1 output).1)
        obtain ⟨vs, looked⟩ := mapM_read outputs
        dsimp only [bind, Except.bind]
        rw [looked]
        rfl

end Reads

/-- A graph is finalized just when it is valid, and then as it is. Whatever the verdict, no read of
the arena was beyond its end. -/
theorem finalize_ok_iff_valid (g : Graph) :
    ((∃ f, g.finalize = .ok f) ↔ g.Valid) ∧ (∀ f, g.finalize = .ok f → f.graph = g) ∧
      g.readCheck = .ok g.check :=
  ⟨finalize_ok_iff.trans check_ok_iff, fun _ => finalize_ok, g.readCheck_eq⟩

end LiteModel.Graph
