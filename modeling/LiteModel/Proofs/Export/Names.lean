import LiteModel.Proofs.Manifest
import LiteModel.Proofs.Export.Numbers
import LiteModel.Proofs.Export.Order

/-! Names from a manifest to a container. A name becomes a position in the arena and that a number
in the container; if tensors keep their names, the name that stands under the number is the one that
was declared, and so is all else about the tensor, its data included. -/
namespace LiteModel

open Container Sequencing

def Container.Summary.tensorAt? (s : Summary) (i : Int32) : Option TensorSummary :=
  if 0 ≤ i.toInt then s.tensors[i.toInt.toNat]? else none

def Container.Summary.nameAt? (s : Summary) (i : Int32) : Option String :=
  (s.tensorAt? i).bind (·.name)

def Container.Model.bufferData (m : Model) : List (List UInt8) :=
  (m.buffers.getD []).map fun b => b.data.getD []

namespace FinalizedGraph

variable {g : FinalizedGraph} {config : ExportConfig} {operations : List Operation}

theorem summary_tensors : (g.summary config operations).tensors =
    (g.usedVariables operations).map fun id =>
      Summary.ofTensor (g.tensorImage config operations id) := by
  simp only [summary, Summary.ofModel, Subgraph.stored, subgraphImage, Option.getD_some,
    List.map_map]
  rfl

theorem tensorAt?_tensorMark (lowered : g.lower = .ok operations)
    (marks : g.Marked operations) {id : VariableId} (used : id ∈ g.graph.references) :
    (g.summary config operations).tensorAt? (g.tensorMark operations id) =
      some (Summary.ofTensor (g.tensorImage config operations id)) := by
  have place : (g.usedVariables operations)[g.tensorNumber operations id]? = some id :=
    List.getElem?_idxOf ((mem_usedVariables lowered).2 used)
  rw [Summary.tensorAt?, marks _ used, if_pos (Int.natCast_nonneg _),
    Int.toNat_natCast, summary_tensors, List.getElem?_map, place, Option.map_some]

theorem nameAt?_tensorMark (lowered : g.lower = .ok operations)
    (marks : g.Marked operations) (named : config.tensorNames = true) {id : VariableId}
    (used : id ∈ g.graph.references) :
    (g.summary config operations).nameAt? (g.tensorMark operations id) =
      (g.graph.lookup id).map (·.name) := by
  rw [Summary.nameAt?, tensorAt?_tensorMark lowered marks used, lookup_variableAt used]
  simp [Summary.ofTensor, tensorImage, named]

theorem names_of_marks (lowered : g.lower = .ok operations) (marks : g.Marked operations)
    (named : config.tensorNames = true) {ids : List VariableId}
    (used : ∀ id ∈ ids, id ∈ g.graph.references) :
    (ids.map (g.tensorMark operations)).map (g.summary config operations).nameAt? =
      ids.map fun id => (g.graph.lookup id).map (·.name) := by
  rw [List.map_map]
  exact List.map_congr_left fun id member => nameAt?_tensorMark lowered marks named (used id member)

theorem summary_kinds (lowered : g.lower = .ok operations)
    (described : (g.summary config operations).Describes g config operations) :
    List.Forall₂ (fun (l : Layer) (r : OperatorSummary) => ∃ kind,
      OperatorKind.ofLayerType? l.layerType = some kind ∧ r.kind = some kind) g.graph.layers
      (g.summary config operations).operators := by
  refine (forall₂_comp (mapM_ok_iff.1 lowered) described.operators).imp ?_
  rintro l r ⟨o, layer, describes⟩
  exact ⟨o.kind, (Operation.ofLayer_ok layer).1, describes.kind⟩

theorem describes_tensor (lowered : g.lower = .ok operations)
    (described : (g.summary config operations).Describes g config operations) {id : VariableId}
    (used : id ∈ g.graph.references) :
    (Summary.ofTensor (g.tensorImage config operations id)).Describes config (g.variableAt id)
      (g.bufferNumber operations id) := by
  have pairs := described.tensors
  rw [summary_tensors, List.forall₂_map_right_iff, List.forall₂_same] at pairs
  obtain ⟨v, found, describes⟩ := pairs id ((mem_usedVariables lowered).2 used)
  rw [lookup_variableAt used] at found
  cases found
  exact describes

theorem buffer_ne_zero_iff (lowered : g.lower = .ok operations)
    (described : (g.summary config operations).Describes g config operations) {id : VariableId}
    (used : id ∈ g.graph.references) :
    (Summary.ofTensor (g.tensorImage config operations id)).buffer ≠ 0 ↔
      id ∈ g.graph.weights ∧ ∃ s, g.storage? id = some s := by
  rw [← bufferNumber_ne_zero_iff lowered, ← (describes_tensor lowered described used).buffer, ne_eq,
    ne_eq, ← UInt32.toNat_inj]
  rfl

theorem bufferData_image : (g.image config operations).stored.bufferData =
    [] :: (g.usedStorages operations).map (·.bytes) := by
  simp only [Model.bufferData, Model.stored, image, Option.getD_some, List.map_cons, List.map_map,
    Option.getD_none, Function.comp_def, Assembly.data_getD]

theorem bufferData_of_weight (lowered : g.lower = .ok operations) (coherent : g.graph.Coherent)
    {id : VariableId} {s : Storage} (weight : id ∈ g.graph.weights)
    (stored : g.storage? id = some s) :
    (g.image config operations).stored.bufferData[g.bufferNumber operations id]? =
      some s.bytes := by
  have listed : s ∈ (operations.flatMap (·.weights)).filterMap g.storage? := by
    rw [weights_of_lower lowered]
    exact List.mem_filterMap.2 ⟨id, weight, stored⟩
  obtain ⟨i, found⟩ := Numbering.exists_indexOf? (n := ⟨g.usedStorages operations⟩) rfl listed
  obtain ⟨below, same, -⟩ := List.findIdx?_eq_some_iff_getElem.1 found
  have number := Numbering.indexOf?_eq_idxOf found
  -- the storage in that place may be another one, which is told apart by its id only
  obtain ⟨other, weight', stored'⟩ := List.mem_filterMap.1
    (Numbering.mem_of_mem_eraseDups (List.getElem_mem below))
  rw [weights_of_lower lowered] at weight'
  have bytes := coherent other id _ _ (storage?_some (Graph.weights_subset weight') stored')
    (storage?_some (Graph.weights_subset weight) stored) ((Storage.beq_iff _ _).1 same)
  rw [bufferNumber_of_weight lowered weight stored, bufferData_image, List.getElem?_cons_succ,
    List.getElem?_map, ← number, List.getElem?_eq_getElem below, Option.map_some, bytes]

end FinalizedGraph

namespace Manifest

/-- Some layer has the tensor as a weight, and it is given elements with which it is declared. -/
structure HasData (m : Manifest) (w : Weights) (d : TensorDeclaration) : Prop where
  weight : ∃ l ∈ m.layers, d.name ∈ l.weights
  declared : d.data = .safetensors
  allocated : ∃ x, w.find? d.name = some x ∧ x.isAllocated = true
  filled : 0 ∉ d.dims

end Manifest

namespace Container

/-- The tensor is as it was declared, with the data that was given for it. -/
structure TensorSummary.Realizes (m : Manifest) (w : Weights) (data : List (List UInt8))
    (d : TensorDeclaration) (t : TensorSummary) : Prop where
  shape : t.shape.map (·.toInt) = d.dims.map fun n => (n.toNat : Int)
  typeCode : ∃ type, ElementType.ofLabel? (m.labelOf d) = some type ∧ t.typeCode = type.code
  buffer : t.buffer ≠ 0 ↔ m.HasData w d
  bytes : t.buffer ≠ 0 → ∃ x bytes, w.find? d.name = some x ∧ x.bytes? = some bytes ∧
    data[t.buffer.toNat]? = some bytes

structure OperatorSummary.Realizes (s : Summary) (l : LayerDeclaration) (r : OperatorSummary) :
    Prop where
  kind : ∃ kind, OperatorKind.ofLayerType? l.layerType = some kind ∧ r.kind = some kind
  inputs : r.inputs.map s.nameAt? = (l.inputs ++ l.weights).map some
  outputs : r.outputs.map s.nameAt? = l.outputs.map some

/-- What is read back says of names what the manifest does. -/
structure Summary.Realizes (m : Manifest) (w : Weights) (data : List (List UInt8)) (s : Summary) :
    Prop where
  distinct : (s.tensors.map (·.name)).Nodup
  operators : List.Forall₂ (OperatorSummary.Realizes s) m.layers s.operators
  inputs : s.inputs.map s.nameAt? = m.inputs.map some
  outputs : s.outputs.map s.nameAt? = m.outputs.map some
  declared : ∀ t ∈ s.tensors, ∃ d ∈ m.tensors, t.name = some d.name
  tensors : ∀ t ∈ s.tensors, ∀ d ∈ m.tensors, t.name = some d.name → t.Realizes m w data d

end Container

namespace Manifest.Builds

variable {m : Manifest} {w : Weights} {g : FinalizedGraph} {config : ExportConfig}
  {operations : List Operation}

theorem hasData_iff (h : m.Builds w g.graph) {id : VariableId} {d : TensorDeclaration}
    (used : id ∈ g.graph.references) (declares : m.Declares w d (g.variableAt id)) :
    (id ∈ g.graph.weights ∧ ∃ s, g.storage? id = some s) ↔ m.HasData w d := by
  have found := FinalizedGraph.lookup_variableAt used
  have stored : g.graph.storage? id = storageOf w d := by
    rw [Graph.storage?, found, Option.bind_some, declares.storage]
  have filled : (g.variableAt id).tensor.isInitialized = true ↔ 0 ∉ d.dims := by
    simp [Tensor.isInitialized, declares.shape, Shape.isEmpty, TensorDeclaration.shape]
  rw [h.mem_weights found, declares.name, FinalizedGraph.storage?_eq used, stored]
  constructor
  · rintro ⟨weight, s, has⟩
    split at has
    next initialized =>
      obtain ⟨declared, x, given, storage⟩ := storageOf_eq_some_iff.1 has
      exact ⟨weight, declared, ⟨x, given, by rw [Tensor.isAllocated, storage]; rfl⟩,
        filled.1 initialized⟩
    next => cases has
  · rintro ⟨weight, declared, ⟨x, given, allocated⟩, elements⟩
    obtain ⟨s, storage⟩ := Option.isSome_iff_exists.1 allocated
    refine ⟨weight, s, ?_⟩
    rw [if_pos (filled.2 elements)]
    exact storageOf_eq_some_iff.2 ⟨declared, x, given, storage⟩

theorem tensor_realizes (h : m.Builds w g.graph) (coherent : w.Coherent)
    (lowered : g.lower = .ok operations)
    (described : (g.summary config operations).Describes g config operations) {id : VariableId}
    {d : TensorDeclaration} (used : id ∈ g.graph.references)
    (declares : m.Declares w d (g.variableAt id)) :
    (Summary.ofTensor (g.tensorImage config operations id)).Realizes m w
      (g.image config operations).stored.bufferData d := by
  obtain ⟨-, shape, typeCode, buffer⟩ := FinalizedGraph.describes_tensor lowered described used
  have data : (Summary.ofTensor (g.tensorImage config operations id)).buffer ≠ 0 ↔ _ :=
    FinalizedGraph.buffer_ne_zero_iff lowered described used
  refine ⟨?_, ⟨_, declares.elementType, typeCode⟩,
    data.trans (h.hasData_iff used declares), fun some => ?_⟩
  · rw [shape, declares.shape]
    rfl
  · obtain ⟨weight, s, stored⟩ := data.1 some
    have bytes : (g.image config operations).stored.bufferData[_]? = _ :=
      FinalizedGraph.bufferData_of_weight lowered (h.coherent coherent) weight stored
    have origin := FinalizedGraph.storage?_some used stored
    rw [Graph.storage?, FinalizedGraph.lookup_variableAt used, Option.bind_some,
      declares.storage] at origin
    obtain ⟨-, x, given, storage⟩ := storageOf_eq_some_iff.1 origin
    exact ⟨x, s.bytes, given, by rw [Tensor.bytes?, storage, Option.map_some], buffer ▸ bytes⟩

theorem names_of_marks (h : m.Builds w g.graph) (named : config.tensorNames = true)
    (lowered : g.lower = .ok operations) (marks : g.Marked operations) {names : List String}
    {ids : List VariableId} (resolved : m.Names names ids)
    (used : ∀ id ∈ ids, id ∈ g.graph.references) :
    (ids.map (g.tensorMark operations)).map (g.summary config operations).nameAt? =
      names.map some :=
  (FinalizedGraph.names_of_marks lowered marks named used).trans (h.names resolved)

theorem operators_realize (h : m.Builds w g.graph) (named : config.tensorNames = true)
    (lowered : g.lower = .ok operations) (marks : g.Marked operations)
    (described : (g.summary config operations).Describes g config operations) :
    List.Forall₂ (OperatorSummary.Realizes (g.summary config operations)) m.layers
      (g.summary config operations).operators := by
  have runs : (g.summary config operations).Runs g.graph _ :=
    FinalizedGraph.summary_runs lowered marks
  have kinds := FinalizedGraph.summary_kinds lowered described
  have known : ∀ l ∈ g.graph.layers, ∀ id ∈ l.references, id ∈ g.graph.references :=
    fun _ => Graph.layer_subset
  have nodes := (List.forall₂_and_left _ _).2
    ⟨known, List.Forall₂.mp (fun _ _ => And.intro) kinds runs.operators⟩
  refine (forall₂_comp h.layers nodes).imp ?_
  rintro d r ⟨l, declares, used, ⟨kind, same, found⟩, inputs, outputs⟩
  refine ⟨⟨kind, declares.layerType ▸ same, found⟩, ?_, ?_⟩
  · rw [inputs, List.map_append, List.map_append, List.map_append,
      h.names_of_marks named lowered marks declares.inputs fun id input =>
        used id (by simp [Layer.references, input]),
      h.names_of_marks named lowered marks declares.weights fun id weight =>
        used id (by simp [Layer.references, weight])]
  · rw [outputs, h.names_of_marks named lowered marks declares.outputs fun id output =>
      used id (by simp [Layer.references, output])]

theorem distinct_names (h : m.Builds w g.graph) (lowered : g.lower = .ok operations) :
    ((g.usedVariables operations).map fun id => some (g.variableAt id).name).Nodup := by
  refine (Numbering.nodup_eraseDups _).map_on fun a usedA b usedB same => ?_
  have usedA := (FinalizedGraph.mem_usedVariables lowered).1 usedA
  have usedB := (FinalizedGraph.mem_usedVariables lowered).1 usedB
  exact h.apart (FinalizedGraph.lookup_variableAt usedA) (FinalizedGraph.lookup_variableAt usedB)
    (Option.some.inj same)

theorem realizes (h : m.Builds w g.graph) (coherent : w.Coherent)
    (named : config.tensorNames = true) (lowered : g.lower = .ok operations)
    (marks : g.Marked operations)
    (described : (g.summary config operations).Describes g config operations) :
    (g.summary config operations).Realizes m w (g.image config operations).stored.bufferData := by
  have name : ∀ id, (Summary.ofTensor (g.tensorImage config operations id)).name =
      some (g.variableAt id).name := by
    intro id
    simp [Summary.ofTensor, FinalizedGraph.tensorImage, named]
  have tensor : ∀ t ∈ (g.summary config operations).tensors, ∃ id ∈ g.graph.references,
      ∃ d ∈ m.tensors, m.Declares w d (g.variableAt id) ∧
        Summary.ofTensor (g.tensorImage config operations id) = t := by
    intro t member
    rw [FinalizedGraph.summary_tensors] at member
    obtain ⟨id, used, same⟩ := List.mem_map.1 member
    have used := (FinalizedGraph.mem_usedVariables lowered).1 used
    obtain ⟨d, place, declares⟩ := h.declared (FinalizedGraph.lookup_variableAt used)
    exact ⟨id, used, d, List.mem_of_getElem? place, declares, same⟩
  refine ⟨?_, h.operators_realize named lowered marks described,
    h.names_of_marks named lowered marks h.inputs FinalizedGraph.inputs_subset,
    h.names_of_marks named lowered marks h.outputs FinalizedGraph.outputs_subset, ?_, ?_⟩
  · simpa only [FinalizedGraph.summary_tensors, List.map_map, Function.comp_def, name] using
      h.distinct_names lowered
  · intro t member
    obtain ⟨id, -, d, listed, declares, rfl⟩ := tensor t member
    exact ⟨d, listed, by rw [name, declares.name]⟩
  · intro t member d listed same
    obtain ⟨id, used, c, declared, declares, rfl⟩ := tensor t member
    rw [name, declares.name] at same
    cases List.inj_on_of_nodup_map h.distinct declared listed (Option.some.inj same)
    exact h.tensor_realizes coherent lowered described used declares

end Manifest.Builds

/-- From a manifest to a container, names mean the same. If tensors keep their names, those that are
read back are distinct; operators, inputs and outputs stand for the tensors that the manifest says;
and each tensor has the declared shape and element type and, if it is a weight with elements, the
bytes that were given for its name. -/
theorem toContainer_realizes {m : Manifest} {w : Weights} {g : FinalizedGraph}
    {config : ExportConfig} {e : Export} (coherent : w.Coherent) (built : m.toGraph w = .ok g)
    (named : config.tensorNames = true) (h : g.toContainer config = .ok e)
    (small : e.bytes.length ≤ 0x80000000) :
    ∃ s n, Summary.ofBytes e.bytes = .ok s ∧ File.root e.bytes.toArray = .ok n ∧
      s.Realizes m w n.bufferData := by
  obtain ⟨operations, lowered, marks, read, described, root⟩ :=
    FinalizedGraph.read_of_toContainer h small
  exact ⟨_, _, read, root,
    (Manifest.builds_of_toGraph built).realizes coherent named lowered marks described⟩

def biasedManifest : Manifest where
  name := "biased"
  inputs := ["x"]
  outputs := ["y"]
  tensors := [⟨"x", [1], none, .none⟩, ⟨"y", [1], none, .none⟩, ⟨"bias", [1], none, .safetensors⟩]
  layers := [⟨"sum", "add", ["x"], ["y"], ["bias"], .empty⟩]

def biasedWeights : Weights :=
  ⟨[("bias", ⟨.vector 1, .f32, some (.ofBytes ⟨0⟩ [0, 0, 0x80, 0x3f])⟩)]⟩

theorem biasedWeights_coherent : biasedWeights.Coherent := by
  have only : ∀ a x, biasedWeights.find? a = some x →
      x = ⟨.vector 1, .f32, some (.ofBytes ⟨0⟩ [0, 0, 0x80, 0x3f])⟩ := by
    intro a x found
    simp only [biasedWeights, Weights.find?, List.lookup_cons, List.lookup_nil] at found
    split at found <;> cases found
    rfl
  intro a b x y s t foundX foundY hasX hasY _
  rw [only a x foundX] at hasX
  rw [only b y foundY] at hasY
  cases hasX
  cases hasY
  rfl

theorem biasedManifest_toGraph : biasedManifest.toGraph biasedWeights = .ok biased := by
  simp only [Manifest.toGraph, bind_ok_iff, mapError_ok_iff]
  exact ⟨(), by cbv, biased.graph.arena.toList, by cbv, biased.graph.layers, by cbv,
    biased.graph.inputs, by cbv, biased.graph.outputs, by cbv, Graph.finalize_graph biased⟩

theorem toContainer_realizes_biased : ∃ e, biasedManifest.toGraph biasedWeights = .ok biased ∧
    biased.toContainer {} = .ok e ∧ e.bytes.length = 400 ∧
    ∃ s n, Summary.ofBytes e.bytes = .ok s ∧ File.root e.bytes.toArray = .ok n ∧
      s.Realizes biasedManifest biasedWeights n.bufferData := by
  obtain ⟨e, exported, length⟩ := biased_exported
  exact ⟨e, biasedManifest_toGraph, exported, length,
    toContainer_realizes biasedWeights_coherent biasedManifest_toGraph rfl exported (by omega)⟩

end LiteModel
