import Mathlib
import LiteModel.Proofs.Graph.Blame
import LiteModel.Proofs.Graph.Validity
import LiteModel.Proofs.Manifest

/-! What can still keep a manifest from becoming a graph once it has passed its own rules. The rules
of a manifest speak of names and those of a graph of positions; as names are distinct and resolved
to the tensors that have them, the graph never breaks a rule that the manifest kept. What is left is
about the weights that were given, and about the order of the layers. -/
namespace LiteModel.Manifest

open Sequencing

/-- Why a manifest that keeps its rules has no graph with the given weights. -/
inductive Obstacle (m : Manifest) (w : Weights) : ModelError → Prop where
  | missing {d : TensorDeclaration} : d ∈ m.tensors → d.data = .safetensors →
    w.find? d.name = none → m.Obstacle w (.weightNotFound d.name)
  | mismatched {d : TensorDeclaration} {x : Tensor} {type : ElementType} : d ∈ m.tensors →
    d.data = .safetensors → w.find? d.name = some x →
    ElementType.ofLabel? (m.labelOf d) = some type → ¬(x.shape = d.shape ∧ x.elementType = type) →
    m.Obstacle w (.weightMismatch d.name (d.shape, type) (x.shape, x.elementType))
  | unready {before after : List LayerDeclaration} {l : LayerDeclaration} {name : String} :
    m.layers = before ++ l :: after → name ∈ l.inputs → name ∉ m.inputs →
    (∀ c ∈ before, name ∉ c.outputs) →
    m.Obstacle w (.graph (.invalidLayer l.name (.inputNotProduced name)))
  | empty {l : LayerDeclaration} {d : TensorDeclaration} : l ∈ m.layers → d ∈ m.tensors →
    d.name ∈ l.inputs ++ l.outputs → 0 ∈ d.dims →
    m.Obstacle w (.graph (.invalidLayer l.name (.zeroElements d.name)))
  | repeated {before after : List LayerDeclaration} {l : LayerDeclaration} {name : String} :
    m.layers = before ++ l :: after → name ∈ l.outputs →
    (∃ c ∈ before, name ∈ c.outputs) ∨ 2 ≤ l.outputs.count name →
    m.Obstacle w (.graph (.invalidLayer l.name (.producedTwice name)))

variable {m : Manifest} {w : Weights}

theorem obstacle_of_variableFor {d : TensorDeclaration} {e : ModelError} (declared : d ∈ m.tensors)
    (sound : m.Sound d) (h : m.variableFor w d = .error e) : m.Obstacle w e := by
  obtain ⟨type, known, -⟩ := sound
  unfold variableFor at h
  rw [elementTypeOf_ok_iff.2 known] at h
  dsimp only [Except.mapError, bind, Except.bind] at h
  split at h
  next => cases h
  next data absent =>
    cases h
    exact .missing declared data absent
  next x data found =>
    split at h
    next => cases h
    next different =>
      cases h
      exact .mismatched declared data found known different

theorem exists_resolve (referrer : String) {names : List String}
    (known : ∀ name ∈ names, name ∈ m.tensorNames) :
    ∃ ids, m.resolve referrer names = .ok ids := by
  cases resolved : m.resolve referrer names with
  | ok ids => exact ⟨ids, rfl⟩
  | error e =>
    obtain ⟨name, listed, failed⟩ := exists_of_mapM_error resolved
    obtain ⟨d, declared, same⟩ := List.mem_map.1 (known name listed)
    have found : (m.idOf? name).isSome = true := by
      simp only [idOf?, Option.isSome_map, List.findIdx?_isSome, List.any_eq_true, beq_iff_eq]
      exact ⟨d, declared, same⟩
    obtain ⟨id, here⟩ := Option.isSome_iff_exists.1 found
    simp [here] at failed

theorem exists_layerFor {d : LayerDeclaration}
    (known : ∀ name ∈ d.references, name ∈ m.tensorNames) : ∃ l, m.layerFor d = .ok l := by
  have part : ∀ names, names ⊆ d.references → ∃ ids, m.resolve d.name names = .ok ids :=
    fun _ listed => exists_resolve d.name fun name used => known name (listed used)
  obtain ⟨inputs, starts⟩ := part d.inputs (by simp [LayerDeclaration.references])
  obtain ⟨outputs, ends⟩ := part d.outputs (by simp [LayerDeclaration.references])
  obtain ⟨weights, data⟩ := part d.weights (by simp [LayerDeclaration.references])
  unfold layerFor
  rw [starts, ends, data]
  exact ⟨_, rfl⟩

namespace Builds

variable {g : Graph}

theorem nonempty (h : m.Builds w g) (consistent : m.Consistent) : g.layers ≠ [] := by
  intro bare
  have same := h.layers.length_eq
  rw [bare, List.length_nil] at same
  exact consistent.nonempty (List.length_eq_zero_iff.1 same)

theorem sized (h : m.Builds w g) (consistent : m.Consistent) :
    ∀ v ∈ g.arena.toList, Graph.isOversized v = false := by
  intro v member
  obtain ⟨d, declared, declares⟩ := exists_of_mem_forall₂ h.tensors member
  obtain ⟨type, known, fits⟩ := consistent.sound d declared
  cases declares.elementType.symm.trans known
  rw [Graph.isOversized_eq_false_iff, declares.shape]
  exact fits

theorem hasVariable (h : m.Builds w g) {names : List String} {ids : List VariableId}
    (resolved : m.Names names ids) : ∀ id ∈ ids, g.hasVariable id = true := by
  intro id member
  obtain ⟨v, there, -⟩ := h.exists_of_mem_names resolved member
  exact Graph.hasVariable_iff.2 (Array.getElem?_eq_some_iff.1 there).1

theorem obstacle_of_breaks (h : m.Builds w g) {front back : List LayerDeclaration}
    {before : List Layer} {d : LayerDeclaration} {l : Layer} {fault : LayerFault}
    (consistent : m.Consistent) (order : m.layers = front ++ d :: back)
    (pairs : List.Forall₂ (fun d l => m.layerFor d = .ok l) front before)
    (here : m.layerFor d = .ok l)
    (broken : g.Breaks (before.foldl Graph.Progress.after { available := g.inputs }) l fault) :
    m.Obstacle w (.graph (.invalidLayer l.name fault)) := by
  have declares := layerFor_ok here
  have used : ∀ id ∈ l.references, g.hasVariable id = true := by
    intro id member
    rcases List.mem_append.1 member with activation | weight
    · rcases List.mem_append.1 activation with input | output
      · exact h.hasVariable declares.inputs id input
      · exact h.hasVariable declares.outputs id output
    · exact h.hasVariable declares.weights id weight
  have earlier : ∀ c ∈ front, ∀ (id : VariableId) (v : Variable), g.lookup id = some v →
      v.name ∈ c.outputs → id ∈ before.flatMap (·.outputs) := by
    intro c member id v there output
    obtain ⟨k, layer, made⟩ := exists_of_mem_forall₂ pairs.flip member
    exact List.mem_flatMap.2
      ⟨k, layer, (h.mem_of_names (layerFor_ok made).outputs there).2 output⟩
  rw [layerFor_name here]
  cases broken with
  | duplicateName taken =>
    exfalso
    rw [Graph.mem_names_foldl] at taken
    obtain ⟨k, layer, same⟩ := taken.resolve_left List.not_mem_nil
    obtain ⟨c, declared, made⟩ := exists_of_mem_forall₂ pairs layer
    have distinct := consistent.distinctLayers
    rw [order, List.map_append, List.map_cons] at distinct
    have again : c.name = d.name := by rw [← layerFor_name made, same, layerFor_name here]
    exact (List.nodup_append.1 distinct).2.2 c.name (List.mem_map_of_mem declared) d.name
      List.mem_cons_self again
  | @unknownVariable id reference missing =>
    rw [used id reference] at missing
    cases missing
  | @inputNotProduced id input unavailable =>
    obtain ⟨v, there, listed⟩ := h.exists_of_mem_names declares.inputs input
    rw [Graph.mem_available_foldl, not_or] at unavailable
    have name : g.nameOf id = v.name := by simp [Graph.nameOf, there]
    rw [name]
    exact .unready order listed (fun start => unavailable.1 ((h.mem_of_names h.inputs there).2 start))
      fun c member output => unavailable.2 (earlier c member id v there output)
  | @zeroElements id activation empty =>
    obtain ⟨v, there⟩ := Graph.exists_lookup (used id (List.mem_append_left _ activation))
    obtain ⟨t, place, stands⟩ := h.declared there
    have name : g.nameOf id = t.name := by simp [Graph.nameOf, there, stands.name]
    have zero : 0 ∈ t.dims := by
      by_contra nonzero
      rw [(Graph.isInitialized_iff there).2 (stands.shape ▸ nonzero)] at empty
      cases empty
    rw [name]
    refine .empty (by simp [order]) (List.mem_of_getElem? place) ?_ zero
    rw [← stands.name]
    rcases List.mem_append.1 activation with input | output
    · exact List.mem_append_left _ ((h.mem_of_names declares.inputs there).1 input)
    · exact List.mem_append_right _ ((h.mem_of_names declares.outputs there).1 output)
  | @producedTwice id output again =>
    obtain ⟨v, there, listed⟩ := h.exists_of_mem_names declares.outputs output
    have name : g.nameOf id = v.name := by simp [Graph.nameOf, there]
    rw [name]
    refine .repeated order listed (again.imp (fun before => ?_) fun twice => ?_)
    · rw [Graph.mem_produced_foldl] at before
      obtain ⟨k, layer, given⟩ := List.mem_flatMap.1 (before.resolve_left List.not_mem_nil)
      obtain ⟨c, declared, made⟩ := exists_of_mem_forall₂ pairs layer
      exact ⟨c, declared, (h.mem_of_names (layerFor_ok made).outputs there).1 given⟩
    · rwa [← h.count_of_names declares.outputs there]

end Builds

/-- After its own rules, a manifest can only fail to become a graph for want of a weight or for a
weight of another form than declared, or because a layer takes what is not there yet, has an
activation without elements, or gives what was given before. -/
theorem toGraph_obstacle {e : ModelError} (valid : m.validate = .ok ())
    (failed : m.toGraph w = .error e) : m.Obstacle w e := by
  have consistent := consistent_of_validate valid
  unfold toGraph at failed
  rw [valid] at failed
  dsimp only [Except.mapError, bind, Except.bind] at failed
  cases tensors : m.tensors.mapM (m.variableFor w) with
  | error fault =>
    rw [tensors] at failed
    cases failed
    obtain ⟨d, declared, refused⟩ := exists_of_mapM_error tensors
    exact obstacle_of_variableFor declared (consistent.sound d declared) refused
  | ok arena =>
  cases nodes : m.layers.mapM m.layerFor with
  | error fault =>
    obtain ⟨d, declared, refused⟩ := exists_of_mapM_error nodes
    obtain ⟨l, made⟩ := exists_layerFor (consistent.declared d declared)
    cases made.symm.trans refused
  | ok layers =>
  obtain ⟨inputs, starts⟩ := exists_resolve m.name fun name start =>
    consistent.endpoints name (List.mem_append_left _ start)
  obtain ⟨outputs, ends⟩ := exists_resolve m.name fun name ending =>
    consistent.endpoints name (List.mem_append_right _ ending)
  have builds := builds_of_parts consistent tensors nodes starts ends
  rw [tensors, nodes, starts, ends] at failed
  obtain ⟨refusal, refused, rfl⟩ := mapError_error_iff.1 failed
  cases Graph.refuses_of_check (Graph.finalize_error_iff.1 refused) with
  | noLayers bare => exact absurd bare (builds.nonempty consistent)
  | oversizedTensor member large =>
    rw [builds.sized consistent _ member] at large
    cases large
  | @noSuchEndpoint id ending missing =>
    have there : Graph.hasVariable _ id = true := (List.mem_append.1 ending).elim
      (builds.hasVariable builds.inputs id) (builds.hasVariable builds.outputs id)
    rw [there] at missing
    cases missing
  | invalidLayer order _ broken =>
    have pairs := mapM_ok_iff.1 nodes
    have order : layers = _ ++ _ :: _ := order
    rw [order] at pairs
    obtain ⟨front, d, back, split, earlier, here⟩ := forall₂_split pairs
    exact builds.obstacle_of_breaks consistent split earlier here broken

def unsorted : Manifest where
  name := "unsorted"
  inputs := ["x"]
  outputs := ["y"]
  tensors := [⟨"x", [4], none, .none⟩, ⟨"h", [4], some "F16", .none⟩, ⟨"y", [4], none, .none⟩]
  layers := [⟨"second", "relu", ["h"], ["y"], [], .empty⟩, ⟨"first", "relu", ["x"], ["h"], [], .empty⟩]

theorem toGraph_obstacle_unsorted : unsorted.validate = .ok () ∧
    unsorted.toGraph {} = .error (.graph (.invalidLayer "second" (.inputNotProduced "h"))) ∧
    unsorted.Obstacle {} (.graph (.invalidLayer "second" (.inputNotProduced "h"))) := by
  have valid : unsorted.validate = .ok () := by cbv
  have failed : unsorted.toGraph {} =
    .error (.graph (.invalidLayer "second" (.inputNotProduced "h"))) := by cbv
  exact ⟨valid, failed, toGraph_obstacle valid failed⟩

end LiteModel.Manifest
