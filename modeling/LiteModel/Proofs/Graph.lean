import LiteModel.Graph.Finalized
import LiteModel.Proofs.Sequencing

/-! What a graph that passes the rules is like. One layer is admitted after what the layers before
it declared; going through all of them, each input is an input of the graph or an output of a layer
further up, and no variable is given by two outputs. -/
namespace LiteModel

namespace Graph

structure Admits (g : Graph) (p : Progress) (l : Layer) : Prop where
  fresh : l.name ∉ p.names
  known : ∀ id ∈ l.references, g.hasVariable id = true
  ready : ∀ id ∈ l.inputs, id ∈ p.available
  initialized : ∀ id ∈ l.inputs ++ l.outputs, g.isInitialized id = true
  once : l.outputs.Nodup ∧ ∀ id ∈ l.outputs, id ∉ p.produced

def AdmitsAll (g : Graph) (p : Progress) : List Layer → Prop
  | [] => True
  | l :: rest => g.Admits p l ∧ g.AdmitsAll (p.after l) rest

variable {g : Graph} {p q : Progress} {l : Layer} {layers : List Layer}

theorem firstRepeat?_eq_none_iff {seen ids : List VariableId} :
    firstRepeat? seen ids = none ↔ ids.Nodup ∧ ∀ id ∈ ids, id ∉ seen := by
  induction ids generalizing seen with
  | nil => simp [firstRepeat?]
  | cons id rest ih =>
    by_cases present : id ∈ seen
    · simp [firstRepeat?, present]
    · simp only [firstRepeat?, List.contains_eq_mem, present, decide_false, Bool.false_eq_true,
        if_false, ih]
      rw [List.nodup_cons, List.forall_mem_cons]
      constructor
      · rintro ⟨distinct, others⟩
        refine ⟨⟨fun again => others id again List.mem_cons_self, distinct⟩, present, ?_⟩
        exact fun x hx before => others x hx (List.mem_cons_of_mem id before)
      · rintro ⟨⟨alone, distinct⟩, -, others⟩
        refine ⟨distinct, fun x hx before => ?_⟩
        rcases List.mem_cons.1 before with rfl | before
        · exact alone hx
        · exact others x hx before

theorem layerFault?_eq_none_iff : g.layerFault? p l = none ↔ g.Admits p l := by
  have all : ∀ {ids : List VariableId} {holds : VariableId → Bool},
      (ids.find? fun id => !holds id) = none ↔ ∀ id ∈ ids, holds id = true := by
    simp
  unfold layerFault?
  by_cases taken : l.name ∈ p.names
  · simp only [List.contains_eq_mem, taken, decide_true, if_true, reduceCtorEq, false_iff]
    exact fun h => h.fresh taken
  simp only [List.contains_eq_mem, taken, decide_false, Bool.false_eq_true, if_false]
  split
  next id missing =>
    simp only [reduceCtorEq, false_iff]
    exact fun h => by simp [all.2 h.known] at missing
  next known =>
    split
    next id early =>
      simp only [reduceCtorEq, false_iff]
      intro h
      have := all.2 fun id hid => decide_eq_true (h.ready id hid)
      simp [this] at early
    next ready =>
      split
      next id empty =>
        simp only [reduceCtorEq, false_iff]
        exact fun h => by simp [all.2 h.initialized] at empty
      next initialized =>
        rw [Option.map_eq_none_iff, firstRepeat?_eq_none_iff]
        have ready : ∀ id ∈ l.inputs, id ∈ p.available :=
          fun id hid => of_decide_eq_true (all.1 ready id hid)
        exact ⟨fun once => ⟨taken, all.1 known, ready, all.1 initialized, once⟩, fun h => h.once⟩

theorem advance_ok_iff : g.advance p l = .ok q ↔ g.Admits p l ∧ p.after l = q := by
  unfold advance
  rw [← layerFault?_eq_none_iff]
  split
  next fault found => simp [found]
  next none => simp [none]

theorem foldlM_advance_ok_iff : layers.foldlM g.advance p = .ok q ↔
    g.AdmitsAll p layers ∧ layers.foldl Progress.after p = q := by
  induction layers generalizing p with
  | nil => simp [AdmitsAll, pure, Except.pure]
  | cons l rest ih =>
    simp only [List.foldlM_cons, Sequencing.bind_ok_iff, advance_ok_iff, ih, AdmitsAll,
      List.foldl_cons]
    constructor
    · rintro ⟨_, ⟨first, rfl⟩, others, last⟩
      exact ⟨⟨first, others⟩, last⟩
    · rintro ⟨⟨first, others⟩, last⟩
      exact ⟨_, ⟨first, rfl⟩, others, last⟩

namespace AdmitsAll

theorem known (h : g.AdmitsAll p layers) :
    ∀ l ∈ layers, ∀ id ∈ l.references, g.hasVariable id = true := by
  induction layers generalizing p with
  | nil => simp
  | cons l rest ih => exact List.forall_mem_cons.2 ⟨h.1.known, ih h.2⟩

theorem ready (h : g.AdmitsAll p layers) {k : Nat} (place : layers[k]? = some l) :
    ∀ id ∈ l.inputs, id ∈ p.available ∨ ∃ j < k, ∃ m, layers[j]? = some m ∧ id ∈ m.outputs := by
  induction layers generalizing p k with
  | nil => simp at place
  | cons first rest ih =>
    intro id input
    cases k with
    | zero =>
      cases place
      exact .inl (h.1.ready id input)
    | succ k =>
      rcases ih h.2 place id input with before | ⟨j, below, m, there, output⟩
      · rcases List.mem_append.1 before with output | before
        · exact .inr ⟨0, Nat.succ_pos k, first, rfl, output⟩
        · exact .inl before
      · exact .inr ⟨j + 1, Nat.succ_lt_succ below, m, there, output⟩

theorem once (h : g.AdmitsAll p layers) :
    (layers.flatMap (·.outputs)).Nodup ∧ ∀ id ∈ layers.flatMap (·.outputs), id ∉ p.produced := by
  induction layers generalizing p with
  | nil => simp
  | cons l rest ih =>
    obtain ⟨distinct, fresh⟩ := h.1.once
    obtain ⟨others, apart⟩ := ih h.2
    have later : ∀ id ∈ rest.flatMap (·.outputs), id ∉ l.outputs ∧ id ∉ p.produced := by
      intro id member
      simpa [Progress.after] using apart id member
    rw [List.flatMap_cons, List.nodup_append]
    refine ⟨⟨distinct, others, ?_⟩, ?_⟩
    · rintro a here _ there rfl
      exact (later a there).1 here
    · intro id member
      rcases List.mem_append.1 member with here | there
      · exact fresh id here
      · exact (later id there).2

end AdmitsAll

/-- What the rules amount to, in no order. -/
structure Accepted (g : Graph) : Prop where
  nonempty : g.layers ≠ []
  sized : ∀ v ∈ g.arena.toList, isOversized v = false
  endpoints : ∀ id ∈ g.inputs ++ g.outputs, g.hasVariable id = true
  layers : g.AdmitsAll { available := g.inputs } g.layers

theorem accepted_of_check (h : g.check = .ok p) : g.Accepted := by
  unfold check at h
  split at h
  · cases h
  next filled =>
    split at h
    · cases h
    next sized =>
      split at h
      · cases h
      next endpoints =>
        refine ⟨by simpa using filled, by simpa using sized, fun id ending => ?_,
          (foldlM_advance_ok_iff.1 h).1⟩
        simpa using List.find?_eq_none.1 endpoints id ending

def references (g : Graph) : List VariableId :=
  g.layers.flatMap Layer.references ++ (g.inputs ++ g.outputs)

def weights (g : Graph) : List VariableId := g.layers.flatMap (·.weights)

def storage? (g : Graph) (id : VariableId) : Option Storage :=
  (g.lookup id).bind (·.tensor.storage)

/-- Storages of one id have the same bytes. -/
def Coherent (g : Graph) : Prop := ∀ a b s t, g.storage? a = some s → g.storage? b = some t →
  s.id = t.id → s.bytes = t.bytes

theorem Accepted.known (h : g.Accepted) : ∀ id ∈ g.references, ∃ v, g.lookup id = some v := by
  intro id member
  have inside : g.hasVariable id = true := by
    rcases List.mem_append.1 member with used | ending
    · obtain ⟨l, layer, used⟩ := List.mem_flatMap.1 used
      exact h.layers.known l layer id used
    · exact h.endpoints id ending
  have inside : id.position < g.arena.size := by simpa [hasVariable] using inside
  exact ⟨g.arena[id.position], Array.getElem?_eq_getElem inside⟩

theorem layer_subset (layer : l ∈ g.layers) : ∀ id ∈ l.references, id ∈ g.references :=
  fun _ used => List.mem_append_left _ (List.mem_flatMap.2 ⟨l, layer, used⟩)

theorem weights_subset {id : VariableId} (weight : id ∈ g.weights) : id ∈ g.references := by
  obtain ⟨l, layer, weight⟩ := List.mem_flatMap.1 weight
  exact layer_subset layer id (List.mem_append_right _ weight)

theorem layer_outputs_subset {id : VariableId} (output : id ∈ g.layers.flatMap (·.outputs)) :
    id ∈ g.references := by
  obtain ⟨l, layer, output⟩ := List.mem_flatMap.1 output
  exact layer_subset layer id (by simp [Layer.references, output])

theorem finalize_graph (f : FinalizedGraph) : f.graph.finalize = .ok f := by
  obtain ⟨g, p, passed⟩ := f
  unfold finalize
  split
  next => rfl
  next refused => cases passed.symm.trans refused

theorem finalize_ok {g : Graph} {f : FinalizedGraph} (h : g.finalize = .ok f) : f.graph = g := by
  unfold finalize at h
  split at h
  · cases h
    rfl
  · cases h

end Graph

theorem FinalizedGraph.isAccepted (g : FinalizedGraph) : g.graph.Accepted :=
  let ⟨_, passed⟩ := g.accepted
  Graph.accepted_of_check passed

end LiteModel
