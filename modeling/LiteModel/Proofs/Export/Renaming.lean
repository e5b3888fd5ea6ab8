import LiteModel.Proofs.Export.Success

/-! Exports do not depend on ids. A renaming carries the lists of one graph to those of another and
keeps what the variables are; buffer ids may change too, as long as the weights that share one still
do. The operations of the two graphs correspond, what is used stands in the same order, and so both
have one image and fail for one reason. -/
namespace LiteModel

open Container Sequencing

def Layer.rename (f : VariableId → VariableId) (l : Layer) : Layer :=
  { l with
    inputs := l.inputs.map f
    outputs := l.outputs.map f
    weights := l.weights.map f }

def Operation.rename (f : VariableId → VariableId) (o : Operation) : Operation :=
  { o with
    inputs := o.inputs.map f
    outputs := o.outputs.map f
    weights := o.weights.map f }

namespace Graph

def SharesBuffer (g : Graph) (a b : VariableId) : Prop :=
  ∃ s t, g.storage? a = some s ∧ g.storage? b = some t ∧ s.id = t.id

/-- The graphs have the same structure, where `f` tells which variable of the second stands for a
variable in use of the first. Names of variables and data other than weights do not count. -/
structure Renames (f : VariableId → VariableId) (g h : Graph) : Prop where
  name : h.name = g.name
  layers : h.layers = g.layers.map (Layer.rename f)
  inputs : h.inputs = g.inputs.map f
  outputs : h.outputs = g.outputs.map f
  injective : ∀ a ∈ g.references, ∀ b ∈ g.references, f a = f b → a = b
  shapes : ∀ a ∈ g.references, ∀ v w, g.lookup a = some v → h.lookup (f a) = some w →
    w.tensor.shape = v.tensor.shape
  elementTypes : ∀ a ∈ g.references, ∀ v w, g.lookup a = some v → h.lookup (f a) = some w →
    w.tensor.elementType = v.tensor.elementType
  data : ∀ a ∈ g.weights, (h.storage? (f a)).map (·.bytes) = (g.storage? a).map (·.bytes)
  sharing : ∀ a ∈ g.weights, ∀ b ∈ g.weights, h.SharesBuffer (f a) (f b) ↔ g.SharesBuffer a b

def KeepsNames (f : VariableId → VariableId) (g h : Graph) : Prop :=
  ∀ a ∈ g.references, ∀ v w, g.lookup a = some v → h.lookup (f a) = some w → w.name = v.name

theorem Renames.weights {f : VariableId → VariableId} {g h : Graph} (r : g.Renames f h) :
    h.weights = g.weights.map f := by
  simp only [Graph.weights, r.layers, List.flatMap_map, List.map_flatMap]
  rfl

theorem sharesBuffer_iff {g : Graph} {a b : VariableId} {s t : Storage} (hs : g.storage? a = some s)
    (ht : g.storage? b = some t) : g.SharesBuffer a b ↔ s.id = t.id := by
  simp [SharesBuffer, hs, ht]

theorem Renames.references {f : VariableId → VariableId} {g h : Graph} (r : g.Renames f h) :
    h.references = g.references.map f := by
  simp only [Graph.references, r.layers, r.inputs, r.outputs, List.flatMap_map, List.map_append,
    List.map_flatMap]
  congr 2
  funext l
  simp [Layer.references, Layer.rename]

end Graph

theorem Operation.operands_rename (f : VariableId → VariableId) (o : Operation) :
    (o.rename f).operands = o.operands.map f := by
  simp [operands, rename]

theorem Operation.outputs_rename (f : VariableId → VariableId) (o : Operation) :
    (o.rename f).outputs = o.outputs.map f := rfl

theorem Operation.ofLayer_rename (f : VariableId → VariableId) (l : Layer) :
    Operation.ofLayer (l.rename f) = (Operation.ofLayer l).map (Operation.rename f) := by
  have options : ∀ kind, optionsOf kind (l.rename f) = optionsOf kind l := fun _ => rfl
  simp only [ofLayer, Layer.rename]
  cases OperatorKind.ofLayerType? l.layerType with
  | none => rfl
  | some kind =>
    have options := options kind
    simp only [Layer.rename] at options
    simp only [options]
    cases optionsOf kind l <;> rfl

namespace Graph.Renames

variable {g h : FinalizedGraph} {f : VariableId → VariableId} {config : ExportConfig}
  {operations : List Operation}

theorem lower (r : g.graph.Renames f h.graph) :
    h.lower = g.lower.map (List.map (Operation.rename f)) := by
  unfold FinalizedGraph.lower
  rw [r.layers]
  exact mapM_map (Operation.ofLayer_rename f) _

theorem lower_ok (r : g.graph.Renames f h.graph) (lowered : g.lower = .ok operations) :
    h.lower = .ok (operations.map (Operation.rename f)) := by
  rw [r.lower, lowered]
  rfl

theorem known (r : g.graph.Renames f h.graph) {id : VariableId} (used : id ∈ g.graph.references) :
    f id ∈ h.graph.references := by
  rw [r.references]
  exact List.mem_map_of_mem used

theorem shape (r : g.graph.Renames f h.graph) {id : VariableId}
    (used : id ∈ g.graph.references) :
    (h.variableAt (f id)).tensor.shape = (g.variableAt id).tensor.shape :=
  r.shapes id used _ _ (FinalizedGraph.lookup_variableAt used)
    (FinalizedGraph.lookup_variableAt (r.known used))

theorem elementType (r : g.graph.Renames f h.graph) {id : VariableId}
    (used : id ∈ g.graph.references) :
    (h.variableAt (f id)).tensor.elementType = (g.variableAt id).tensor.elementType :=
  r.elementTypes id used _ _ (FinalizedGraph.lookup_variableAt used)
    (FinalizedGraph.lookup_variableAt (r.known used))

theorem variableName (r : g.graph.Renames f h.graph) (names : g.graph.KeepsNames f h.graph)
    {id : VariableId} (used : id ∈ g.graph.references) :
    (h.variableAt (f id)).name = (g.variableAt id).name :=
  names id used _ _ (FinalizedGraph.lookup_variableAt used)
    (FinalizedGraph.lookup_variableAt (r.known used))

theorem alike (r : g.graph.Renames f h.graph) : ∀ a ∈ g.graph.references,
    ∀ b ∈ g.graph.references, (id a == id b) = (f a == f b) := by
  intro a ha b hb
  rw [Bool.eq_iff_iff, beq_iff_eq, beq_iff_eq]
  exact ⟨congrArg f, r.injective a ha b hb⟩

theorem usedVariables (r : g.graph.Renames f h.graph) (lowered : g.lower = .ok operations) :
    h.usedVariables (operations.map (Operation.rename f)) = (g.usedVariables operations).map f := by
  rw [FinalizedGraph.usedVariables_of_lower lowered,
    FinalizedGraph.usedVariables_of_lower (r.lower_ok lowered), r.references]
  obtain ⟨firsts, -, ofFirst, ofSecond⟩ := Numbering.eraseDups_alike r.alike
  rw [List.map_id, List.map_id] at ofFirst
  rw [ofFirst, ofSecond]

theorem tensorNumber (r : g.graph.Renames f h.graph) (lowered : g.lower = .ok operations)
    {id : VariableId} (used : id ∈ g.graph.references) :
    h.tensorNumber (operations.map (Operation.rename f)) (f id) = g.tensorNumber operations id := by
  have same := Numbering.idxOf_alike r.alike used
  rw [List.map_id] at same
  rw [FinalizedGraph.tensorNumber, FinalizedGraph.tensorNumber,
    FinalizedGraph.usedVariables_of_lower lowered,
    FinalizedGraph.usedVariables_of_lower (r.lower_ok lowered), r.references]
  exact same

theorem tensorWord (r : g.graph.Renames f h.graph) (lowered : g.lower = .ok operations)
    {id : VariableId} (used : id ∈ g.graph.references) :
    h.tensorWord (operations.map (Operation.rename f)) (f id) = g.tensorWord operations id := by
  rw [FinalizedGraph.tensorWord, FinalizedGraph.tensorWord, r.tensorNumber lowered used]

theorem storage_bytes (r : g.graph.Renames f h.graph) {id : VariableId}
    (weight : id ∈ g.graph.weights) :
    (h.storage? (f id)).map (·.bytes) = (g.storage? id).map (·.bytes) := by
  have used := Graph.weights_subset weight
  have initialized : (h.variableAt (f id)).tensor.isInitialized =
      (g.variableAt id).tensor.isInitialized := by
    rw [Tensor.isInitialized, Tensor.isInitialized, r.shape used]
  rw [FinalizedGraph.storage?_eq used, FinalizedGraph.storage?_eq (r.known used), initialized]
  cases (g.variableAt id).tensor.isInitialized with
  | false => rfl
  | true => exact r.data id weight

theorem storage_some (r : g.graph.Renames f h.graph) {id : VariableId} {s : Storage}
    (weight : id ∈ g.graph.weights) (there : g.storage? id = some s) :
    ∃ t, h.storage? (f id) = some t ∧ t.bytes = s.bytes := by
  have same := r.storage_bytes weight
  rw [there] at same
  exact Option.map_eq_some_iff.1 same

theorem storages (r : g.graph.Renames f h.graph) (lowered : g.lower = .ok operations) :
    let data := g.graph.weights.filter fun id => (g.storage? id).isSome
    (operations.flatMap (·.weights)).filterMap g.storage? =
        data.map (fun id => (g.storage? id).getD default) ∧
      ((operations.map (Operation.rename f)).flatMap (·.weights)).filterMap h.storage? =
        data.map (fun id => (h.storage? (f id)).getD default) := by
  have some : ∀ id ∈ g.graph.weights, (h.storage? (f id)).isSome = (g.storage? id).isSome := by
    intro id weight
    have same := congrArg Option.isSome (r.storage_bytes weight)
    simpa using same
  have weights : (operations.map (Operation.rename f)).flatMap (·.weights) =
      g.graph.weights.map f := by
    rw [← r.weights]
    exact FinalizedGraph.weights_of_lower (r.lower_ok lowered)
  refine ⟨?_, ?_⟩
  · rw [FinalizedGraph.weights_of_lower lowered, filterMap_eq_map_filter]
  · rw [weights, List.filterMap_map, filterMap_eq_map_filter]
    simp only [Function.comp_apply]
    rw [List.filter_congr some]

theorem storages_alike (r : g.graph.Renames f h.graph) :
    let data := g.graph.weights.filter fun id => (g.storage? id).isSome
    ∀ a ∈ data, ∀ b ∈ data,
      ((g.storage? a).getD default == (g.storage? b).getD default) =
        ((h.storage? (f a)).getD default == (h.storage? (f b)).getD default) := by
  intro data a ha b hb
  obtain ⟨weightA, someA⟩ := List.mem_filter.1 ha
  obtain ⟨weightB, someB⟩ := List.mem_filter.1 hb
  obtain ⟨s, hs⟩ := Option.isSome_iff_exists.1 someA
  obtain ⟨t, ht⟩ := Option.isSome_iff_exists.1 someB
  obtain ⟨s', hs', -⟩ := r.storage_some weightA hs
  obtain ⟨t', ht', -⟩ := r.storage_some weightB ht
  have usedA := Graph.weights_subset weightA
  have usedB := Graph.weights_subset weightB
  -- ids of buffers differ between the graphs: what carries over is which weights share one
  have first := Graph.sharesBuffer_iff (FinalizedGraph.storage?_some usedA hs)
    (FinalizedGraph.storage?_some usedB ht)
  have second := Graph.sharesBuffer_iff (FinalizedGraph.storage?_some (r.known usedA) hs')
    (FinalizedGraph.storage?_some (r.known usedB) ht')
  rw [hs, ht, hs', ht', Bool.eq_iff_iff]
  simp only [Option.getD_some, Storage.beq_iff]
  rw [← first, ← second]
  exact (r.sharing a weightA b weightB).symm

theorem usedStorages_bytes (r : g.graph.Renames f h.graph) (lowered : g.lower = .ok operations) :
    (h.usedStorages (operations.map (Operation.rename f))).map (·.bytes) =
      (g.usedStorages operations).map (·.bytes) := by
  obtain ⟨first, second⟩ := r.storages lowered
  obtain ⟨firsts, listed, ofFirst, ofSecond⟩ := Numbering.eraseDups_alike r.storages_alike
  rw [FinalizedGraph.usedStorages, FinalizedGraph.usedStorages, first, second, ofFirst, ofSecond,
    List.map_map, List.map_map]
  apply List.map_congr_left
  intro id member
  obtain ⟨weight, some⟩ := List.mem_filter.1 (listed id member)
  obtain ⟨s, hs⟩ := Option.isSome_iff_exists.1 some
  obtain ⟨t, ht, same⟩ := r.storage_some weight hs
  simp only [Function.comp_apply, hs, ht, Option.getD_some, same]

theorem storages_map {α : Type} (r : g.graph.Renames f h.graph) (lowered : g.lower = .ok operations)
    (k : List UInt8 → α) :
    (h.usedStorages (operations.map (Operation.rename f))).map (fun s => k s.bytes) =
      (g.usedStorages operations).map fun s => k s.bytes := by
  have same := congrArg (List.map k) (r.usedStorages_bytes lowered)
  simpa only [List.map_map, Function.comp_def] using same

theorem bufferNumber (r : g.graph.Renames f h.graph) (lowered : g.lower = .ok operations)
    {id : VariableId} (used : id ∈ g.graph.references) :
    h.bufferNumber (operations.map (Operation.rename f)) (f id) = g.bufferNumber operations id := by
  have weights : f id ∈ (operations.map (Operation.rename f)).flatMap (·.weights) ↔
      id ∈ operations.flatMap (·.weights) := by
    rw [FinalizedGraph.weights_of_lower lowered,
      FinalizedGraph.weights_of_lower (r.lower_ok lowered), r.weights]
    constructor
    · intro member
      obtain ⟨a, weight, same⟩ := List.mem_map.1 member
      rwa [← r.injective a (Graph.weights_subset weight) id used same]
    · exact List.mem_map_of_mem
  unfold FinalizedGraph.bufferNumber
  by_cases weight : id ∈ operations.flatMap (·.weights)
  · rw [if_pos weight, if_pos (weights.2 weight)]
    rw [FinalizedGraph.weights_of_lower lowered] at weight
    cases hs : g.storage? id with
    | none =>
      have nothing := r.storage_bytes weight
      rw [hs] at nothing
      rw [Option.map_eq_none_iff.1 nothing]
    | some s =>
      obtain ⟨t, ht, -⟩ := r.storage_some weight hs
      obtain ⟨first, second⟩ := r.storages lowered
      have member : id ∈ g.graph.weights.filter fun id => (g.storage? id).isSome :=
        List.mem_filter.2 ⟨weight, by rw [hs]; rfl⟩
      have same := Numbering.idxOf_alike r.storages_alike member
      rw [hs, ht] at same
      rw [FinalizedGraph.usedStorages, FinalizedGraph.usedStorages, first, second, ht]
      exact congrArg (· + 1) same
  · rw [if_neg weight, if_neg fun there => weight (weights.1 there)]

theorem tensorImage (r : g.graph.Renames f h.graph) (lowered : g.lower = .ok operations)
    (names : g.graph.KeepsNames f h.graph ∨ config.tensorNames = false) {id : VariableId}
    (used : id ∈ g.graph.references) :
    h.tensorImage config (operations.map (Operation.rename f)) (f id) =
      g.tensorImage config operations id := by
  simp only [FinalizedGraph.tensorImage, r.shape used, r.elementType used,
    r.bufferNumber lowered used, TensorEntry.mk.injEq, true_and]
  rcases names with names | hidden
  · rw [r.variableName names used]
  · simp [hidden]

theorem tensorMarks (r : g.graph.Renames f h.graph) (lowered : g.lower = .ok operations)
    {ids : List VariableId} (used : ∀ id ∈ ids, id ∈ g.graph.references) :
    (ids.map f).map (h.tensorMark (operations.map (Operation.rename f))) =
      ids.map (g.tensorMark operations) := by
  rw [List.map_map]
  apply List.map_congr_left
  intro id member
  rw [Function.comp_apply, FinalizedGraph.tensorMark, FinalizedGraph.tensorMark,
    r.tensorWord lowered (used id member)]

theorem usedKinds : FinalizedGraph.usedKinds (operations.map (Operation.rename f)) =
    FinalizedGraph.usedKinds operations := by
  rw [FinalizedGraph.usedKinds, FinalizedGraph.usedKinds, List.map_map]
  rfl

theorem operatorImage (r : g.graph.Renames f h.graph) (lowered : g.lower = .ok operations)
    {o : Operation} (member : o ∈ operations) :
    h.operatorImage (operations.map (Operation.rename f)) (o.rename f) =
      g.operatorImage operations o := by
  have used := FinalizedGraph.references_subset lowered member
  have inputs := r.tensorMarks lowered fun id operand => used id (o.operands_subset id operand)
  have outputs := r.tensorMarks lowered fun id output => used id (o.outputs_subset id output)
  simp only [FinalizedGraph.operatorImage, usedKinds, Operation.operands_rename,
    Operation.outputs_rename, inputs, outputs]
  rfl

theorem image (r : g.graph.Renames f h.graph) (lowered : g.lower = .ok operations)
    (names : g.graph.KeepsNames f h.graph ∨ config.tensorNames = false) :
    h.image config (operations.map (Operation.rename f)) = g.image config operations := by
  have tensors : (g.usedVariables operations).map
      (h.tensorImage config (operations.map (Operation.rename f)) ∘ f) =
        (g.usedVariables operations).map (g.tensorImage config operations) :=
    List.map_congr_left fun id used =>
      r.tensorImage lowered names ((FinalizedGraph.mem_usedVariables lowered).1 used)
  have operators : operations.map
      (h.operatorImage (operations.map (Operation.rename f)) ∘ Operation.rename f) =
        operations.map (g.operatorImage operations) :=
    List.map_congr_left fun o member => r.operatorImage lowered member
  have inputs := r.tensorMarks lowered FinalizedGraph.inputs_subset
  have outputs := r.tensorMarks lowered FinalizedGraph.outputs_subset
  have buffers := r.storages_map lowered fun bytes =>
    (⟨if bytes.isEmpty then none else some bytes⟩ : Buffer)
  simp only [FinalizedGraph.image, FinalizedGraph.subgraphImage, usedKinds,
    r.usedVariables lowered, r.inputs, r.outputs, r.name, inputs, outputs, List.map_map, tensors,
    operators, buffers]

theorem oversizedNumbers (r : g.graph.Renames f h.graph) (lowered : g.lower = .ok operations)
    {ids : List VariableId} (used : ∀ id ∈ ids, id ∈ g.graph.references) :
    (ids.map f).findSome? (h.oversizedNumber? (operations.map (Operation.rename f))) =
      ids.findSome? (g.oversizedNumber? operations) := by
  refine findSome?_map_congr fun id member => ?_
  rw [FinalizedGraph.oversizedNumber?, FinalizedGraph.oversizedNumber?,
    r.tensorWord lowered (used id member)]

theorem fault? (r : g.graph.Renames f h.graph) (lowered : g.lower = .ok operations)
    (names : g.graph.KeepsNames f h.graph) :
    h.fault? (operations.map (Operation.rename f)) = g.fault? operations := by
  have weights : h.weightBytes (operations.map (Operation.rename f)) = g.weightBytes operations := by
    simp only [FinalizedGraph.weightBytes, Storage.size_eq_length,
      r.storages_map lowered List.length]
  have shapes : ((g.usedVariables operations).map f).findSome? h.oversizedShape? =
      (g.usedVariables operations).findSome? g.oversizedShape? := by
    refine findSome?_map_congr fun id used => ?_
    have used := (FinalizedGraph.mem_usedVariables lowered).1 used
    rw [FinalizedGraph.oversizedShape?, FinalizedGraph.oversizedShape?, r.shape used,
      r.variableName names used]
  have operands : (operations.map (Operation.rename f)).findSome?
      (h.oversizedOperand? (operations.map (Operation.rename f))) =
        operations.findSome? (g.oversizedOperand? operations) := by
    refine findSome?_map_congr fun o member => ?_
    have used := FinalizedGraph.references_subset lowered member
    rw [FinalizedGraph.oversizedOperand?, FinalizedGraph.oversizedOperand?,
      Operation.operands_rename, Operation.outputs_rename,
      r.oversizedNumbers lowered fun id operand => used id (o.operands_subset id operand),
      r.oversizedNumbers lowered fun id output => used id (o.outputs_subset id output)]
  simp only [FinalizedGraph.fault?, FinalizedGraph.oversizedWeights?, weights,
    r.usedVariables lowered, shapes, operands, r.inputs, r.outputs,
    r.oversizedNumbers lowered FinalizedGraph.inputs_subset,
    r.oversizedNumbers lowered FinalizedGraph.outputs_subset]

theorem report (r : g.graph.Renames f h.graph) (lowered : g.lower = .ok operations) (m : Model) :
    h.report (operations.map (Operation.rename f)) m = g.report operations m := by
  have storages := congrArg List.length (r.usedStorages_bytes lowered)
  simp only [List.length_map] at storages
  simp only [FinalizedGraph.report, usedKinds, r.usedVariables lowered, List.length_map, storages]

end Graph.Renames

/-- Graphs of the same structure have the same export, whatever the ids of their variables and
buffers are: the same bytes and counts, or the same error. If names are not kept then those of the
variables do not count either, except in errors. -/
theorem toContainer_renamed {g h : FinalizedGraph} {f : VariableId → VariableId}
    (r : g.graph.Renames f h.graph) :
    (g.graph.KeepsNames f h.graph → ∀ config, h.toContainer config = g.toContainer config) ∧
      ∀ config a b, config.tensorNames = false → g.toContainer config = .ok a →
        h.toContainer config = .ok b → b = a := by
  constructor
  · intro names config
    cases lowered : g.lower with
    | error e =>
      have refused : h.lower = .error e := by
        rw [r.lower, lowered]
        rfl
      simp only [FinalizedGraph.toContainer, lowered, refused, Except.mapError, bind, Except.bind]
    | ok operations =>
      rw [FinalizedGraph.toContainer_eq lowered, FinalizedGraph.toContainer_eq (r.lower_ok lowered),
        r.fault? lowered names, r.image lowered (.inl names)]
      simp only [r.report lowered]
  · intro config a b hidden first second
    obtain ⟨operations, lowered, -, -, rfl⟩ := FinalizedGraph.toContainer_ok_iff.1 first
    obtain ⟨renamed, again, -, -, rfl⟩ := FinalizedGraph.toContainer_ok_iff.1 second
    cases (r.lower_ok lowered).symm.trans again
    rw [r.image lowered (.inr hidden), r.report lowered]

def tied : FinalizedGraph where
  graph := {
    name := "tied"
    arena := #[⟨"x", .placeholder (.vector 1) .f32⟩, ⟨"y", .placeholder (.vector 1) .f32⟩,
      ⟨"z", .placeholder (.vector 1) .f32⟩, ⟨"u", ⟨.vector 1, .u8, some (.ofBytes ⟨0⟩ [7])⟩⟩,
      ⟨"v", ⟨.vector 1, .u8, some (.ofBytes ⟨0⟩ [7])⟩⟩,
      ⟨"w", ⟨.vector 1, .u8, some (.ofBytes ⟨1⟩ [7])⟩⟩]
    layers := [⟨"first", "add", [⟨0⟩], [⟨1⟩], [⟨3⟩], .empty⟩,
      ⟨"second", "add", [⟨1⟩], [⟨2⟩], [⟨4⟩, ⟨5⟩], .empty⟩]
    inputs := [⟨0⟩]
    outputs := [⟨2⟩] }
  accepted := ⟨_, by cbv⟩

def retiedGraph (output : String) : Graph where
  name := "tied"
  arena := #[⟨"w", ⟨.vector 1, .u8, some (.ofBytes ⟨8⟩ [7])⟩⟩,
    ⟨"v", ⟨.vector 1, .u8, some (.ofBytes ⟨9⟩ [7])⟩⟩,
    ⟨"u", ⟨.vector 1, .u8, some (.ofBytes ⟨9⟩ [7])⟩⟩, ⟨"other", .placeholder (.vector 5) .i32⟩,
    ⟨output, .placeholder (.vector 1) .f32⟩, ⟨"y", .placeholder (.vector 1) .f32⟩,
    ⟨"x", ⟨.vector 1, .f32, some (.ofBytes ⟨8⟩ [1, 2, 3, 4])⟩⟩]
  layers := [⟨"first", "add", [⟨6⟩], [⟨5⟩], [⟨2⟩], .empty⟩,
    ⟨"second", "add", [⟨5⟩], [⟨4⟩], [⟨1⟩, ⟨0⟩], .empty⟩]
  inputs := [⟨6⟩]
  outputs := [⟨4⟩]

set_option maxRecDepth 4000 in
def retied : FinalizedGraph := ⟨retiedGraph "z", _, by cbv⟩

set_option maxRecDepth 4000 in
def relabelled : FinalizedGraph := ⟨retiedGraph "out", _, by cbv⟩

def retiedPosition (id : VariableId) : VariableId :=
  ([⟨6⟩, ⟨5⟩, ⟨4⟩, ⟨2⟩, ⟨1⟩, ⟨0⟩][id.position]?).getD id

theorem tied_renames (output : String) :
    tied.graph.Renames retiedPosition (retiedGraph output) where
  name := rfl
  layers := rfl
  inputs := rfl
  outputs := rfl
  injective := by decide
  shapes := by
    intro a used v w
    fin_cases used <;> rintro ⟨⟩ ⟨⟩ <;> rfl
  elementTypes := by
    intro a used v w
    fin_cases used <;> rintro ⟨⟩ ⟨⟩ <;> rfl
  data := by
    intro a weight
    fin_cases weight <;> rfl
  sharing := by
    intro a first b second
    fin_cases first <;> fin_cases second <;>
      simp [Graph.SharesBuffer, Graph.storage?, Graph.lookup, tied, retiedGraph, retiedPosition]

def tiedOperations : List Operation :=
  [⟨"first", .add, [⟨0⟩], [⟨1⟩], [⟨3⟩], none⟩, ⟨"second", .add, [⟨1⟩], [⟨2⟩], [⟨4⟩, ⟨5⟩], none⟩]

def unnamed : ExportConfig := { tensorNames := false }

set_option maxRecDepth 4000 in
theorem tied_withinLimits : tied.WithinLimits unnamed tiedOperations := by
  have tables : (tied.image unnamed tiedOperations).tableCount = 14 := by cbv
  have size : (tied.image unnamed tiedOperations).footprint.size = 666 := by cbv
  exact .of_counts tables size (by decide)

set_option maxRecDepth 4000 in
theorem toContainer_renamed_tied :
    tied.graph.Renames retiedPosition retied.graph ∧
      tied.graph.KeepsNames retiedPosition retied.graph ∧
      retied.toContainer {} = tied.toContainer {} ∧
      ∃ e, tied.toContainer unnamed = .ok e ∧ relabelled.toContainer unnamed = .ok e := by
  have names : tied.graph.KeepsNames retiedPosition retied.graph := by
    intro a used v w
    fin_cases used <;> rintro ⟨⟩ ⟨⟩ <;> rfl
  have renames : tied.graph.Renames retiedPosition relabelled.graph := tied_renames "out"
  refine ⟨tied_renames "z", names, (toContainer_renamed (tied_renames "z")).1 names {}, ?_⟩
  have lowered : tied.lower = .ok tiedOperations := by cbv
  obtain ⟨e, first⟩ := tied_withinLimits.exists_export lowered (by decide) (by cbv)
  have limits : relabelled.WithinLimits unnamed (tiedOperations.map (.rename retiedPosition)) := by
    have same := renames.image lowered (.inr (rfl : unnamed.tensorNames = false))
    obtain ⟨bytes, tables, size⟩ := tied_withinLimits
    rw [← same] at bytes tables size
    exact ⟨bytes, tables, size⟩
  obtain ⟨e', second⟩ := limits.exists_export (renames.lower_ok lowered) (by decide) (by cbv)
  have same := (toContainer_renamed renames).2 unnamed e e' rfl first second
  rw [same] at second
  exact ⟨_, first, second⟩

end LiteModel
