import Mathlib
import LiteModel.Proofs.Manifest

/-! The graph of a manifest read back against it, position by position. The names of the tensors are
distinct, so the arena lists them as the manifest does, finding a name gives its position, and the
lists of a layer are those that were written. Nothing is asked of the weights but the tensors that
are declared with data; each of these is asked for once, so it makes no difference whether a weight
stays in the map or is taken out of it when it is used. -/
namespace LiteModel

open Sequencing

namespace Manifest

variable {m : Manifest} {v w : Weights}

/-- The ids are positions of the tensors of these names, in the order that the names are listed. -/
def Positions (m : Manifest) (names : List String) (ids : List VariableId) : Prop :=
  ids.map (fun id => m.tensorNames[id.position]?) = names.map some

structure LayerStands (m : Manifest) (d : LayerDeclaration) (l : Layer) : Prop where
  name : l.name = d.name
  layerType : l.layerType = d.layerType
  inputs : m.Positions d.inputs l.inputs
  outputs : m.Positions d.outputs l.outputs
  weights : m.Positions d.weights l.weights
  properties : l.properties = d.properties

/-- The graph is the manifest, each tensor and each layer at its position. -/
structure Mirrors (m : Manifest) (w : Weights) (g : Graph) : Prop where
  name : g.name = m.name
  variableCount : g.arena.size = m.tensors.length
  layerCount : g.layers.length = m.layers.length
  tensors : ∀ (i : Nat) d, m.tensors[i]? = some d →
    ∃ v, g.lookup ⟨i⟩ = some v ∧ m.Stands w d v ∧ g.find? d.name = some ⟨i⟩
  /-- Weights that are tied in the map are so in the graph, and no others. -/
  tied : ∀ (i j : Nat) c d x y, m.tensors[i]? = some c → m.tensors[j]? = some d →
    c.data = .safetensors → d.data = .safetensors → w.find? c.name = some x →
    w.find? d.name = some y → ∃ a b, g.lookup ⟨i⟩ = some a ∧ g.lookup ⟨j⟩ = some b ∧
      a.tensor.sharesStorage b.tensor = x.sharesStorage y
  layers : ∀ (i : Nat) d, m.layers[i]? = some d → ∃ l, g.layers[i]? = some l ∧ m.LayerStands d l
  inputs : m.Positions m.inputs g.inputs
  outputs : m.Positions m.outputs g.outputs

namespace Builds

variable {g : Graph}

theorem arena_names (h : m.Builds w g) : g.arena.toList.map (·.name) = m.tensorNames :=
  map_eq_of_forall₂ (h.tensors.imp fun _ _ declares => declares.name)

theorem lookup_name (h : m.Builds w g) (id : VariableId) :
    (g.lookup id).map (·.name) = m.tensorNames[id.position]? := by
  rw [← h.arena_names, List.getElem?_map, Array.getElem?_toList]
  rfl

theorem find?_eq (h : m.Builds w g) (name : String) : g.find? name = m.idOf? name := by
  have first : g.arena.toList.findIdx? (·.name == name) =
      m.tensors.findIdx? (·.name == name) := by
    have same := congrArg (List.findIdx? (· == name)) h.arena_names
    rwa [tensorNames, List.findIdx?_map, List.findIdx?_map] at same
  rw [Graph.find?, idOf?, ← first, ← List.findIdx?_toArray]

theorem positions (h : m.Builds w g) {names : List String} {ids : List VariableId}
    (resolved : m.Names names ids) : m.Positions names ids := by
  have same := h.names resolved
  simp only [h.lookup_name] at same
  exact same

theorem layerStands (h : m.Builds w g) {d : LayerDeclaration} {l : Layer}
    (made : m.layerFor d = .ok l) : m.LayerStands d l :=
  have declares := layerFor_ok made
  ⟨layerFor_name made, declares.layerType, h.positions declares.inputs,
    h.positions declares.outputs, h.positions declares.weights, layerFor_properties made⟩

end Builds

theorem exists_lookup_of_toGraph {g : FinalizedGraph} (h : m.toGraph w = .ok g) {i : Nat}
    {d : TensorDeclaration} (place : m.tensors[i]? = some d) :
    ∃ v, g.graph.lookup ⟨i⟩ = some v ∧ m.Stands w d v ∧ g.graph.find? d.name = some ⟨i⟩ := by
  have builds := builds_of_toGraph h
  obtain ⟨arena, _, _, _, -, tensors, -, -, -, made⟩ := parts_of_toGraph h
  have stand : List.Forall₂ (m.Stands w) m.tensors arena :=
    forall₂_of_mapM tensors fun _ _ _ => stands_of_variableFor
  obtain ⟨v, here, stands⟩ := forall₂_getElem? stand place
  have there : g.graph.lookup ⟨i⟩ = some v := by simpa [Graph.lookup, made] using here
  refine ⟨v, there, stands, ?_⟩
  rw [builds.find?_eq]
  exact builds.idOf?_eq_some_iff.2 ⟨v, there, stands.name⟩

theorem mirrors_of_toGraph {g : FinalizedGraph} (h : m.toGraph w = .ok g) :
    m.Mirrors w g.graph := by
  have builds := builds_of_toGraph h
  obtain ⟨_, layers, _, _, -, -, nodes, -, -, made⟩ := parts_of_toGraph h
  exact {
    name := by rw [made]
    variableCount := by rw [builds.tensors.length_eq, Array.length_toList]
    layerCount := builds.layers.length_eq.symm
    tensors := fun i d place => exists_lookup_of_toGraph h place
    tied := by
      intro i j c d x y first second given given' found found'
      obtain ⟨a, here, stands, -⟩ := exists_lookup_of_toGraph h first
      obtain ⟨b, there, stands', -⟩ := exists_lookup_of_toGraph h second
      cases found.symm.trans (stands.weight given)
      cases found'.symm.trans (stands'.weight given')
      exact ⟨a, b, here, there, rfl⟩
    layers := by
      intro i d place
      obtain ⟨l, here, fine⟩ := forall₂_getElem? (mapM_ok_iff.1 nodes) place
      exact ⟨l, by rw [made]; exact here, builds.layerStands fine⟩
    inputs := builds.positions builds.inputs
    outputs := builds.positions builds.outputs }

theorem variableFor_congr {d : TensorDeclaration}
    (same : d.data = .safetensors → v.find? d.name = w.find? d.name) :
    m.variableFor v d = m.variableFor w d := by
  unfold variableFor
  cases data : d.data with
  | none => rfl
  | safetensors => rw [same data]

theorem toGraph_congr (same : ∀ d ∈ m.tensors, d.data = .safetensors →
    v.find? d.name = w.find? d.name) : m.toGraph v = m.toGraph w := by
  have arenas : m.tensors.mapM (m.variableFor v) = m.tensors.mapM (m.variableFor w) :=
    mapM_congr fun d declared => variableFor_congr (same d declared)
  rw [toGraph, toGraph, arenas]

end Manifest

namespace Weights

def without (w : Weights) (name : String) : Weights := ⟨w.entries.filter (·.1 != name)⟩

theorem find?_without (w : Weights) (name other : String) :
    (w.without name).find? other = if other = name then none else w.find? other :=
  lookup_filter_ne w.entries

end Weights

namespace Manifest

variable {m : Manifest} {w : Weights}

/-- The variables of the tensors, where each weight is taken out of the map as it is used. -/
def takeVariables (m : Manifest) (w : Weights) :
    List TensorDeclaration → Except ModelError (List Variable)
  | [] => return []
  | d :: rest => do
    let first ← m.variableFor w d
    let others ← m.takeVariables (if d.data = .safetensors then w.without d.name else w) rest
    return first :: others

theorem takeVariables_eq {ds : List TensorDeclaration} (distinct : (ds.map (·.name)).Nodup) :
    m.takeVariables w ds = ds.mapM (m.variableFor w) := by
  -- what is left of the map differs from step to step, so the induction is over every map
  induction ds generalizing w with
  | nil => rfl
  | cons d rest ih =>
    rw [List.map_cons, List.nodup_cons] at distinct
    have others : rest.mapM (m.variableFor (if d.data = .safetensors then w.without d.name else w)) =
        rest.mapM (m.variableFor w) := by
      refine mapM_congr fun other listed => variableFor_congr fun _ => ?_
      split
      next =>
        have apart : other.name ≠ d.name := fun same =>
          distinct.1 (same ▸ List.mem_map_of_mem listed)
        rw [Weights.find?_without, if_neg apart]
      next => rfl
    rw [takeVariables, ih distinct.2, others, List.mapM_cons]

/-- The graph of a manifest is the manifest, position by position: variables with their names,
shapes and element types, without storage or with the very weights that are given, and layers with
the positions of what they list. It depends on no other weight, and taking the weights out of the
map one after another makes the same arena. -/
theorem toGraph_mirrors {g : FinalizedGraph} (h : m.toGraph w = .ok g) :
    m.Mirrors w g.graph ∧
      m.takeVariables w m.tensors = .ok g.graph.arena.toList ∧
      ∀ v : Weights, (∀ d ∈ m.tensors, d.data = .safetensors → v.find? d.name = w.find? d.name) →
        m.toGraph v = .ok g := by
  refine ⟨mirrors_of_toGraph h, ?_, fun v same => (toGraph_congr same).trans h⟩
  obtain ⟨arena, _, _, _, consistent, tensors, -, -, -, made⟩ := parts_of_toGraph h
  rw [takeVariables_eq consistent.distinctTensors, tensors, made]

def twofold : Manifest where
  name := "twofold"
  inputs := ["x"]
  outputs := ["y"]
  tensors := [⟨"x", [1], none, .none⟩, ⟨"a", [1], some "U8", .safetensors⟩,
    ⟨"b", [1], some "U8", .safetensors⟩, ⟨"c", [1], none, .safetensors⟩, ⟨"y", [1], none, .none⟩]
  layers := [⟨"sum", "add", ["x", "x"], ["y"], ["b", "a", "b", "c"], .ofList [("axis", "0")]⟩]

def twofoldWeights : Weights := ⟨[("spare", .zeros ⟨3⟩ (.vector 2) .f16),
  ("a", ⟨.vector 1, .u8, some (.ofBytes ⟨7⟩ [5])⟩), ("x", .zeros ⟨4⟩ (.vector 1) .f32),
  ("b", ⟨.vector 1, .u8, some (.ofBytes ⟨7⟩ [5])⟩), ("c", .placeholder (.vector 1) .f32)]⟩

def twofoldGraph : FinalizedGraph where
  graph := {
    name := "twofold"
    arena := #[⟨"x", .placeholder (.vector 1) .f32⟩, ⟨"a", ⟨.vector 1, .u8, some (.ofBytes ⟨7⟩ [5])⟩⟩,
      ⟨"b", ⟨.vector 1, .u8, some (.ofBytes ⟨7⟩ [5])⟩⟩, ⟨"c", .placeholder (.vector 1) .f32⟩,
      ⟨"y", .placeholder (.vector 1) .f32⟩]
    layers := [⟨"sum", "add", [⟨0⟩, ⟨0⟩], [⟨4⟩], [⟨2⟩, ⟨1⟩, ⟨2⟩, ⟨3⟩], .ofList [("axis", "0")]⟩]
    inputs := [⟨0⟩]
    outputs := [⟨4⟩] }
  accepted := ⟨_, by cbv⟩

theorem twofold_toGraph : twofold.toGraph twofoldWeights = .ok twofoldGraph := by
  simp only [toGraph, bind_ok_iff, mapError_ok_iff]
  exact ⟨(), by cbv, twofoldGraph.graph.arena.toList, by cbv, twofoldGraph.graph.layers, by cbv,
    twofoldGraph.graph.inputs, by cbv, twofoldGraph.graph.outputs, by cbv,
    Graph.finalize_graph twofoldGraph⟩

theorem toGraph_mirrors_twofold : twofold.toGraph twofoldWeights = .ok twofoldGraph ∧
    twofold.Mirrors twofoldWeights twofoldGraph.graph ∧
    twofold.takeVariables twofoldWeights twofold.tensors = .ok twofoldGraph.graph.arena.toList ∧
    ∀ v : Weights, (∀ d ∈ twofold.tensors, d.data = .safetensors →
      v.find? d.name = twofoldWeights.find? d.name) → twofold.toGraph v = .ok twofoldGraph :=
  ⟨twofold_toGraph, toGraph_mirrors twofold_toGraph⟩

end Manifest

end LiteModel
