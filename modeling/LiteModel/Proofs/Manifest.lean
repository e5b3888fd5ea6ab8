import LiteModel.Manifest.Graph
import LiteModel.Proofs.Graph
import LiteModel.Proofs.Manifest.Consistency

/-! What the graph of a manifest is like. The tensors of a manifest that passes its rules have
distinct names, and each is the variable at its position; so a name that a layer lists and the id
that it is resolved to stand for one tensor. -/
namespace LiteModel

open Sequencing

/-- An id is the id of one storage: tensors that have the same id have the same bytes. -/
def Weights.Coherent (w : Weights) : Prop := ∀ a b x y s t, w.find? a = some x →
  w.find? b = some y → x.storage = some s → y.storage = some t → s.id = t.id → s.bytes = t.bytes

namespace Manifest

variable {m : Manifest} {w : Weights}

def storageOf (w : Weights) (d : TensorDeclaration) : Option Storage :=
  match d.data with
  | .none => none
  | .safetensors => (w.find? d.name).bind (·.storage)

theorem storageOf_eq_some_iff {d : TensorDeclaration} {s : Storage} : storageOf w d = some s ↔
    d.data = .safetensors ∧ ∃ x, w.find? d.name = some x ∧ x.storage = some s := by
  unfold storageOf
  cases d.data <;> simp [Option.bind_eq_some_iff]

structure Declares (m : Manifest) (w : Weights) (d : TensorDeclaration) (v : Variable) : Prop where
  name : v.name = d.name
  shape : v.tensor.shape = d.shape
  elementType : ElementType.ofLabel? (m.labelOf d) = some v.tensor.elementType
  storage : v.tensor.storage = storageOf w d

/-- The variable is the declared tensor: without storage, or with the weight of its name as given. -/
structure Stands (m : Manifest) (w : Weights) (d : TensorDeclaration) (v : Variable) : Prop where
  name : v.name = d.name
  shape : v.tensor.shape = d.shape
  elementType : ElementType.ofLabel? (m.labelOf d) = some v.tensor.elementType
  placeholder : d.data = .none → v.tensor.storage = none
  weight : d.data = .safetensors → w.find? d.name = some v.tensor

theorem stands_of_variableFor {d : TensorDeclaration} {v : Variable}
    (h : m.variableFor w d = .ok v) : m.Stands w d v := by
  unfold variableFor at h
  rw [bind_ok_iff] at h
  obtain ⟨type, known, h⟩ := h
  have known := elementTypeOf_ok_iff.1 (mapError_ok_iff.1 known)
  split at h
  next data =>
    cases h
    exact ⟨rfl, rfl, known, fun _ => rfl, fun given => by simp [data] at given⟩
  next => cases h
  next data found =>
    split at h
    next same =>
      cases h
      obtain ⟨shape, rfl⟩ := same
      exact ⟨rfl, shape, known, fun bare => by simp [data] at bare, fun _ => found⟩
    next => cases h

theorem Stands.declares {d : TensorDeclaration} {v : Variable} (h : m.Stands w d v) :
    m.Declares w d v := by
  refine ⟨h.name, h.shape, h.elementType, ?_⟩
  unfold storageOf
  split
  next data => exact h.placeholder data
  next data => rw [h.weight data, Option.bind_some]

theorem variableFor_ok {d : TensorDeclaration} {v : Variable} (h : m.variableFor w d = .ok v) :
    m.Declares w d v :=
  (stands_of_variableFor h).declares

def Names (m : Manifest) (names : List String) (ids : List VariableId) : Prop :=
  List.Forall₂ (fun name id => m.idOf? name = some id) names ids

theorem resolve_ok {referrer : String} {names : List String} {ids : List VariableId}
    (h : m.resolve referrer names = .ok ids) : m.Names names ids := by
  refine forall₂_of_mapM h fun name _ id found => ?_
  split at found
  next here =>
    cases found
    exact here
  next => cases found

structure LayerDeclares (m : Manifest) (d : LayerDeclaration) (l : Layer) : Prop where
  layerType : l.layerType = d.layerType
  inputs : m.Names d.inputs l.inputs
  outputs : m.Names d.outputs l.outputs
  weights : m.Names d.weights l.weights

theorem layerFor_ok_iff {d : LayerDeclaration} {l : Layer} : m.layerFor d = .ok l ↔
    m.resolve d.name d.inputs = .ok l.inputs ∧ m.resolve d.name d.outputs = .ok l.outputs ∧
      m.resolve d.name d.weights = .ok l.weights ∧
      l = ⟨d.name, d.layerType, l.inputs, l.outputs, l.weights, d.properties⟩ := by
  unfold layerFor
  simp only [bind_ok_iff]
  constructor
  · rintro ⟨inputs, starts, outputs, ends, weights, data, made⟩
    cases made
    exact ⟨starts, ends, data, rfl⟩
  · rintro ⟨starts, ends, data, kept⟩
    exact ⟨_, starts, _, ends, _, data, congrArg Except.ok kept.symm⟩

theorem layerFor_ok {d : LayerDeclaration} {l : Layer} (h : m.layerFor d = .ok l) :
    m.LayerDeclares d l := by
  obtain ⟨starts, ends, data, kept⟩ := layerFor_ok_iff.1 h
  exact ⟨congrArg Layer.layerType kept, resolve_ok starts, resolve_ok ends, resolve_ok data⟩

theorem layerFor_name {d : LayerDeclaration} {l : Layer} (h : m.layerFor d = .ok l) :
    l.name = d.name :=
  congrArg Layer.name (layerFor_ok_iff.1 h).2.2.2

theorem layerFor_properties {d : LayerDeclaration} {l : Layer} (h : m.layerFor d = .ok l) :
    l.properties = d.properties :=
  congrArg Layer.properties (layerFor_ok_iff.1 h).2.2.2

/-- The graph has the tensors and the layers that the manifest declares, each in its place. -/
structure Builds (m : Manifest) (w : Weights) (g : Graph) : Prop where
  distinct : m.tensorNames.Nodup
  tensors : List.Forall₂ (m.Declares w) m.tensors g.arena.toList
  layers : List.Forall₂ m.LayerDeclares m.layers g.layers
  inputs : m.Names m.inputs g.inputs
  outputs : m.Names m.outputs g.outputs

theorem builds_of_parts {arena : List Variable} {layers : List Layer}
    {inputs outputs : List VariableId} (consistent : m.Consistent)
    (tensors : m.tensors.mapM (m.variableFor w) = .ok arena)
    (nodes : m.layers.mapM m.layerFor = .ok layers)
    (starts : m.resolve m.name m.inputs = .ok inputs)
    (ends : m.resolve m.name m.outputs = .ok outputs) :
    m.Builds w ⟨m.name, arena.toArray, layers, inputs, outputs⟩ :=
  ⟨consistent.distinctTensors, forall₂_of_mapM tensors fun _ _ _ => variableFor_ok,
    forall₂_of_mapM nodes fun _ _ _ => layerFor_ok, resolve_ok starts, resolve_ok ends⟩

theorem parts_of_toGraph {g : FinalizedGraph} (h : m.toGraph w = .ok g) :
    ∃ arena layers inputs outputs, m.Consistent ∧
      m.tensors.mapM (m.variableFor w) = .ok arena ∧ m.layers.mapM m.layerFor = .ok layers ∧
      m.resolve m.name m.inputs = .ok inputs ∧ m.resolve m.name m.outputs = .ok outputs ∧
      g.graph = ⟨m.name, arena.toArray, layers, inputs, outputs⟩ := by
  unfold toGraph at h
  simp only [bind_ok_iff, mapError_ok_iff] at h
  obtain ⟨_, valid, arena, tensors, layers, nodes, inputs, starts, outputs, ends, finalized⟩ := h
  exact ⟨arena, layers, inputs, outputs, consistent_of_validate valid, tensors, nodes, starts, ends,
    Graph.finalize_ok finalized⟩

theorem builds_of_toGraph {g : FinalizedGraph} (h : m.toGraph w = .ok g) : m.Builds w g.graph := by
  obtain ⟨_, _, _, _, consistent, tensors, nodes, starts, ends, made⟩ := parts_of_toGraph h
  rw [made]
  exact builds_of_parts consistent tensors nodes starts ends

namespace Builds

variable {g : Graph}

theorem lookup (h : m.Builds w g) {k : Nat} {d : TensorDeclaration}
    (place : m.tensors[k]? = some d) : ∃ v, g.lookup ⟨k⟩ = some v ∧ m.Declares w d v := by
  simpa [Graph.lookup] using forall₂_getElem? h.tensors place

theorem declared (h : m.Builds w g) {id : VariableId} {v : Variable}
    (found : g.lookup id = some v) :
    ∃ d, m.tensors[id.position]? = some d ∧ m.Declares w d v :=
  forall₂_getElem? h.tensors.flip (by simpa [Graph.lookup] using found)

theorem storage?_eq (h : m.Builds w g) {id : VariableId} {s : Storage}
    (stored : g.storage? id = some s) : ∃ d, storageOf w d = some s := by
  obtain ⟨v, found, storage⟩ := Option.bind_eq_some_iff.1 stored
  obtain ⟨d, -, declares⟩ := h.declared found
  exact ⟨d, declares.storage ▸ storage⟩

theorem coherent (h : m.Builds w g) (coherent : w.Coherent) : g.Coherent := by
  intro a b s t first second same
  obtain ⟨_, first⟩ := h.storage?_eq first
  obtain ⟨_, second⟩ := h.storage?_eq second
  obtain ⟨-, x, foundX, hasX⟩ := storageOf_eq_some_iff.1 first
  obtain ⟨-, y, foundY, hasY⟩ := storageOf_eq_some_iff.1 second
  exact coherent _ _ x y s t foundX foundY hasX hasY same

theorem apart (h : m.Builds w g) {a b : VariableId} {u v : Variable} (first : g.lookup a = some u)
    (second : g.lookup b = some v) (same : u.name = v.name) : a = b := by
  obtain ⟨c, placeC, declaresC⟩ := h.declared first
  obtain ⟨d, placeD, declaresD⟩ := h.declared second
  have names : m.tensorNames[a.position]? = m.tensorNames[b.position]? := by
    simp only [tensorNames, List.getElem?_map, placeC, placeD, Option.map_some, ← declaresC.name,
      ← declaresD.name, same]
  have below : a.position < m.tensorNames.length := by
    simpa [tensorNames] using (List.getElem?_eq_some_iff.1 placeC).1
  cases a
  cases b
  exact congrArg VariableId.mk ((List.getElem?_inj below h.distinct).1 names)

theorem idOf?_eq_some_iff (h : m.Builds w g) {name : String} {id : VariableId} :
    m.idOf? name = some id ↔ ∃ v, g.lookup id = some v ∧ v.name = name := by
  have sound : ∀ {id}, m.idOf? name = some id → ∃ v, g.lookup id = some v ∧ v.name = name := by
    intro id found
    obtain ⟨k, first, rfl⟩ := Option.map_eq_some_iff.1 found
    obtain ⟨below, same, -⟩ := List.findIdx?_eq_some_iff_getElem.1 first
    obtain ⟨v, there, declares⟩ := h.lookup (List.getElem?_eq_getElem below)
    exact ⟨v, there, declares.name.trans (beq_iff_eq.1 same)⟩
  refine ⟨sound, ?_⟩
  -- the first tensor of the name is found, and it is the only one
  rintro ⟨v, there, rfl⟩
  obtain ⟨d, place, declares⟩ := h.declared there
  have some : (m.idOf? v.name).isSome = true := by
    simp only [idOf?, Option.isSome_map, List.findIdx?_isSome, List.any_eq_true, beq_iff_eq]
    exact ⟨d, List.mem_of_getElem? place, declares.name.symm⟩
  obtain ⟨other, found⟩ := Option.isSome_iff_exists.1 some
  obtain ⟨u, here, same⟩ := sound found
  rw [found, h.apart here there same]

theorem names (h : m.Builds w g) {names : List String} {ids : List VariableId}
    (resolved : m.Names names ids) :
    ids.map (fun id => (g.lookup id).map (·.name)) = names.map some := by
  induction resolved with
  | nil => rfl
  | cons first _ ih =>
    obtain ⟨v, there, same⟩ := h.idOf?_eq_some_iff.1 first
    rw [List.map_cons, List.map_cons, ih, there, Option.map_some, same]

theorem id_eq_iff (h : m.Builds w g) {name : String} {id other : VariableId} {v : Variable}
    (resolved : m.idOf? name = some other) (there : g.lookup id = some v) :
    id = other ↔ v.name = name := by
  have here := h.idOf?_eq_some_iff.2 ⟨v, there, rfl⟩
  constructor
  · rintro rfl
    obtain ⟨u, found, named⟩ := h.idOf?_eq_some_iff.1 resolved
    cases there.symm.trans found
    exact named
  · intro named
    rw [named, resolved] at here
    exact (Option.some.inj here).symm

theorem mem_of_names (h : m.Builds w g) {names : List String} {ids : List VariableId}
    (resolved : m.Names names ids) {id : VariableId} {v : Variable} (there : g.lookup id = some v) :
    id ∈ ids ↔ v.name ∈ names := by
  induction resolved with
  | nil => simp
  | cons first _ ih => rw [List.mem_cons, List.mem_cons, ih, h.id_eq_iff first there]

theorem count_of_names (h : m.Builds w g) {names : List String} {ids : List VariableId}
    (resolved : m.Names names ids) {id : VariableId} {v : Variable} (there : g.lookup id = some v) :
    ids.count id = names.count v.name := by
  induction resolved with
  | nil => rfl
  | cons first _ ih =>
    simp only [List.count_cons, ih, beq_iff_eq, eq_comm (b := id), eq_comm (b := v.name),
      h.id_eq_iff first there]

theorem exists_of_mem_names (h : m.Builds w g) {names : List String} {ids : List VariableId}
    (resolved : m.Names names ids) {id : VariableId} (member : id ∈ ids) :
    ∃ v, g.lookup id = some v ∧ v.name ∈ names := by
  obtain ⟨name, listed, first⟩ := exists_of_mem_forall₂ resolved member
  obtain ⟨v, there, rfl⟩ := h.idOf?_eq_some_iff.1 first
  exact ⟨v, there, listed⟩

theorem mem_weights (h : m.Builds w g) {id : VariableId} {v : Variable}
    (there : g.lookup id = some v) : id ∈ g.weights ↔ ∃ l ∈ m.layers, v.name ∈ l.weights := by
  have each : ∀ {ds : List LayerDeclaration} {ls : List Layer},
      List.Forall₂ m.LayerDeclares ds ls →
        (id ∈ ls.flatMap (·.weights) ↔ ∃ d ∈ ds, v.name ∈ d.weights) := by
    intro ds ls pairs
    induction pairs with
    | nil => simp
    | cons first _ ih =>
      rw [List.flatMap_cons, List.mem_append, ih, h.mem_of_names first.weights there,
        List.exists_mem_cons_iff]
  exact each h.layers

end Builds

end Manifest

end LiteModel
