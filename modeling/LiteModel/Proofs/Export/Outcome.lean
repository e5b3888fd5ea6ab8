import LiteModel.Proofs.Graph
import LiteModel.Proofs.Export.ReadBack

/-! An export in one formula. `FinalizedGraph.image` is the content that a container of the graph
has, whatever the size of its numbers, and `FinalizedGraph.fault?` the first number that is too
large, in the order of assembly. The operations of a finalized graph only refer to what it has, so
nothing else can go wrong before the bytes are verified. -/
namespace LiteModel

open Container Sequencing

namespace FinalizedGraph

variable (g : FinalizedGraph) (config : ExportConfig) (operations : List Operation)

def variableAt (id : VariableId) : Variable := (g.graph.lookup id).getD default

def tensorNumber (id : VariableId) : Nat := (g.usedVariables operations).idxOf id

def tensorWord (id : VariableId) : UInt32 := UInt32.ofNat (g.tensorNumber operations id)

def tensorMark (id : VariableId) : Int32 := Int32.ofNat (g.tensorWord operations id).toNat

def tensorImage (id : VariableId) : TensorEntry where
  shape := some ((g.variableAt id).tensor.shape.dims.map fun d => Int32.ofNat d.toNat)
  typeCode := (g.variableAt id).tensor.elementType.code
  buffer := UInt32.ofNat (g.bufferNumber operations id)
  name := if config.tensorNames then some (g.variableAt id).name else none

def operatorImage (o : Operation) : OperatorEntry where
  codeIndex := UInt32.ofNat ((usedKinds operations).idxOf o.kind)
  inputs := some (o.operands.map (g.tensorMark operations))
  outputs := some (o.outputs.map (g.tensorMark operations))
  options := Assembly.optionsOf o.options

def subgraphImage : Subgraph where
  tensors := some ((g.usedVariables operations).map (g.tensorImage config operations))
  inputs := some (g.graph.inputs.map (g.tensorMark operations))
  outputs := some (g.graph.outputs.map (g.tensorMark operations))
  operators := some (operations.map (g.operatorImage operations))
  name := some (config.subgraphName.getD g.graph.name)

def image : Model where
  version := supportedVersion
  operatorCodes := some ((usedKinds operations).map Assembly.operatorCode)
  subgraphs := some [g.subgraphImage config operations]
  description := some config.description
  buffers := some (⟨none⟩ :: (g.usedStorages operations).map fun s =>
    ⟨if s.bytes.isEmpty then none else some s.bytes⟩)

def weightBytes : Nat := Word.total ((g.usedStorages operations).map (·.size))

def oversizedWeights? : Option ExportError :=
  if Assembly.maxFileSize < g.weightBytes operations + Assembly.tableRoom then
    some (.oversizedWeights (g.weightBytes operations))
  else none

def oversizedDimension? (name : String) (d : UInt64) : Option ExportError :=
  if d.toNat ≤ ExportIndex.largestInteger then none else some (.oversizedDimension d name)

def oversizedShape? (id : VariableId) : Option ExportError :=
  (g.variableAt id).tensor.shape.dims.findSome? (oversizedDimension? (g.variableAt id).name)

def oversizedNumber? (id : VariableId) : Option ExportError :=
  if (g.tensorWord operations id).toNat ≤ ExportIndex.largestInteger then none
  else some (.oversizedIndex (g.tensorWord operations id).toNat)

def oversizedOperand? (o : Operation) : Option ExportError :=
  (o.operands.findSome? (g.oversizedNumber? operations)).or
    (o.outputs.findSome? (g.oversizedNumber? operations))

def fault? : Option ExportError :=
  (g.oversizedWeights? operations).or
    (((g.usedVariables operations).findSome? g.oversizedShape?).or
      ((operations.findSome? (g.oversizedOperand? operations)).or
        ((g.graph.inputs.findSome? (g.oversizedNumber? operations)).or
          (g.graph.outputs.findSome? (g.oversizedNumber? operations)))))

def report (m : Model) : Export where
  bytes := m.encode
  operatorCodes := (usedKinds operations).length
  operators := operations.length
  tensors := (g.usedVariables operations).length
  buffers := (g.usedStorages operations).length + 1

end FinalizedGraph

namespace Operation

theorem operands_subset (o : Operation) : ∀ id ∈ o.operands, id ∈ o.references := by
  intro id member
  rcases List.mem_append.1 member with input | weight
  · simp [references, input]
  · simp [references, weight]

theorem outputs_subset (o : Operation) : ∀ id ∈ o.outputs, id ∈ o.references := by
  intro id member
  simp [references, member]

end Operation

namespace FinalizedGraph

variable {g : FinalizedGraph} {operations : List Operation}

theorem flatMap_of_lower {p : Operation → List VariableId} {q : Layer → List VariableId}
    (lowered : g.lower = .ok operations) (same : ∀ l o, Operation.ofLayer l = .ok o → p o = q l) :
    operations.flatMap p = g.graph.layers.flatMap q := by
  have each : operations.map p = g.graph.layers.map q := map_eq_of_mapM lowered same
  rw [List.flatMap_def, List.flatMap_def, each]

theorem references_of_lower (lowered : g.lower = .ok operations) :
    operations.flatMap Operation.references ++ (g.graph.inputs ++ g.graph.outputs) =
      g.graph.references := by
  rw [Graph.references, flatMap_of_lower lowered fun l o made => ?_]
  obtain ⟨-, -, inputs, outputs, weights⟩ := Operation.ofLayer_ok made
  rw [Operation.references, Layer.references, inputs, outputs, weights]

theorem weights_of_lower (lowered : g.lower = .ok operations) :
    operations.flatMap (·.weights) = g.graph.weights :=
  flatMap_of_lower lowered fun _ _ made => (Operation.ofLayer_ok made).2.2.2.2

theorem usedVariables_of_lower (lowered : g.lower = .ok operations) :
    g.usedVariables operations = g.graph.references.eraseDups := by
  rw [usedVariables, references_of_lower lowered]

theorem mem_usedVariables (lowered : g.lower = .ok operations) {id : VariableId} :
    id ∈ g.usedVariables operations ↔ id ∈ g.graph.references := by
  rw [usedVariables_of_lower lowered, List.mem_eraseDups]

theorem inputs_subset : ∀ id ∈ g.graph.inputs, id ∈ g.graph.references := fun _ member =>
  List.mem_append_right _ (List.mem_append_left _ member)

theorem outputs_subset : ∀ id ∈ g.graph.outputs, id ∈ g.graph.references := fun _ member =>
  List.mem_append_right _ (List.mem_append_right _ member)

theorem references_subset {o : Operation} (lowered : g.lower = .ok operations)
    (member : o ∈ operations) : ∀ id ∈ o.references, id ∈ g.graph.references := by
  intro id used
  rw [← references_of_lower lowered]
  exact List.mem_append_left _ (List.mem_flatMap.2 ⟨o, member, used⟩)

theorem lookup_variableAt {id : VariableId} (known : id ∈ g.graph.references) :
    g.graph.lookup id = some (g.variableAt id) := by
  obtain ⟨v, found⟩ := g.isAccepted.known id known
  rw [variableAt, found, Option.getD_some]

theorem storage?_eq {id : VariableId} (used : id ∈ g.graph.references) : g.storage? id =
      if (g.variableAt id).tensor.isInitialized then g.graph.storage? id else none := by
  have found := lookup_variableAt used
  simp only [storage?, Graph.storage?, found, Option.bind_some, BufferSlot.ofTensor]
  cases (g.variableAt id).tensor.storage with
  | none => simp [BufferSlot.storage?]
  | some s => cases (g.variableAt id).tensor.isInitialized <;> rfl

theorem storage?_some {id : VariableId} {s : Storage} (used : id ∈ g.graph.references)
    (h : g.storage? id = some s) : g.graph.storage? id = some s := by
  rw [storage?_eq used] at h
  split at h
  · exact h
  · cases h

theorem exists_build (lowered : g.lower = .ok operations) :
    ∃ index, ExportIndex.build g operations = .ok index := by
  have each : ∀ index : ExportIndex, ∀ o ∈ operations,
      ∃ next, ExportIndex.addOperation g index o = .ok next := by
    intro index o member
    refine exists_foldlM_ok (fun index id weight => ?_) _
    have known := lookup_variableAt (references_subset lowered member id (by
      simp [Operation.references, weight]))
    simp [ExportIndex.addWeight, BufferSlot.ofVariable, known, bind, Except.bind, pure, Except.pure]
  obtain ⟨filled, all⟩ := exists_foldlM_ok each {}
  exact ⟨_, by rw [ExportIndex.build, all]; rfl⟩

end FinalizedGraph

theorem ExportIndex.bufferIndex_eq {g : FinalizedGraph} {operations : List Operation}
    {index : ExportIndex} {id : VariableId}
    (known : id ∈ index.weights → ∃ v, g.graph.lookup id = some v)
    (stored : index.storages.values = g.usedStorages operations)
    (weights : index.weights = operations.flatMap (·.weights)) :
    index.bufferIndex g id = .ok (UInt32.ofNat (g.bufferNumber operations id)) := by
  have some : ∃ i, index.bufferIndex g id = .ok i := by
    unfold bufferIndex
    split
    next weight =>
      obtain ⟨v, found⟩ := known (List.contains_iff_mem.1 weight)
      simp only [BufferSlot.ofVariable, found, bind, Except.bind]
      cases BufferSlot.ofTensor v.tensor <;> exact ⟨_, rfl⟩
    next => exact ⟨0, rfl⟩
  obtain ⟨i, placed⟩ := some
  rw [placed, bufferIndex_ok stored weights placed]

namespace Assembly

variable {g : FinalizedGraph} {config : ExportConfig} {operations : List Operation}
  {index : ExportIndex}

theorem dimension_eq (name : String) (d : UInt64) : dimension name d =
    outcome (FinalizedGraph.oversizedDimension? name d) (Int32.ofNat d.toNat) := by
  unfold dimension FinalizedGraph.oversizedDimension?
  split <;> rfl

theorem tensorEntry_eq {id : VariableId} (known : id ∈ g.graph.references)
    (stored : index.storages.values = g.usedStorages operations)
    (weights : index.weights = operations.flatMap (·.weights)) :
    tensorEntry g index config id =
      outcome (g.oversizedShape? id) (g.tensorImage config operations id) := by
  have found := FinalizedGraph.lookup_variableAt known
  have placed := ExportIndex.bufferIndex_eq (fun _ => ⟨_, found⟩) stored weights
  unfold tensorEntry
  rw [found]
  dsimp only
  rw [mapM_eq_outcome fun d _ => dimension_eq _ d, placed, ← FinalizedGraph.oversizedShape?]
  exact outcome_bind_ok rfl

theorem tensorIndices_eq {ids : List VariableId}
    (numbered : index.tensors.values = g.usedVariables operations)
    (used : ∀ id ∈ ids, id ∈ g.usedVariables operations) :
    index.tensorIndices ids = outcome (ids.findSome? (g.oversizedNumber? operations))
      (ids.map (g.tensorMark operations)) := by
  refine mapM_eq_outcome fun id member => ?_
  obtain ⟨n, found⟩ := Numbering.exists_indexOf? (numbered.trans rfl)
    (List.mem_eraseDups.1 (used id member))
  have word : index.tensors.indexOf VariableId.title id = .ok (g.tensorWord operations id) := by
    rw [Numbering.Table.indexOf_of_place found, Numbering.indexOf?_eq_idxOf found, numbered]
    rfl
  simp only [ExportIndex.tensorIndex, word, FinalizedGraph.oversizedNumber?,
    FinalizedGraph.tensorMark, bind, Except.bind]
  split <;> rfl

theorem operatorEntry_eq {o : Operation} (lowered : g.lower = .ok operations)
    (kinds : index.kinds.values = FinalizedGraph.usedKinds operations)
    (numbered : index.tensors.values = g.usedVariables operations) (member : o ∈ operations) :
    operatorEntry index o =
      outcome (g.oversizedOperand? operations o) (g.operatorImage operations o) := by
  have used : ∀ id ∈ o.references, id ∈ g.usedVariables operations := fun id refers =>
    (FinalizedGraph.mem_usedVariables lowered).2
      (FinalizedGraph.references_subset lowered member id refers)
  obtain ⟨n, found⟩ := Numbering.exists_indexOf? kinds (List.mem_map_of_mem member)
  have code : n = (FinalizedGraph.usedKinds operations).idxOf o.kind := by
    rw [Numbering.indexOf?_eq_idxOf found, kinds]
  have inputs := tensorIndices_eq numbered fun id h => used id (o.operands_subset id h)
  have outputs := tensorIndices_eq numbered fun id h => used id (o.outputs_subset id h)
  simp only [operatorEntry, Numbering.Table.indexOf_of_place found, inputs, outputs, code]
  refine outcome_bind ?_
  exact outcome_bind_ok rfl

theorem subgraph_eq (lowered : g.lower = .ok operations)
    (built : ExportIndex.build g operations = .ok index) :
    subgraph g operations index config = outcome
      (((g.usedVariables operations).findSome? g.oversizedShape?).or
        ((operations.findSome? (g.oversizedOperand? operations)).or
          ((g.graph.inputs.findSome? (g.oversizedNumber? operations)).or
            (g.graph.outputs.findSome? (g.oversizedNumber? operations)))))
      (g.subgraphImage config operations) := by
  obtain ⟨kinds, numbered, stored, weights⟩ := ExportIndex.build_ok built
  have entry : ∀ id ∈ g.usedVariables operations, tensorEntry g index config id =
      outcome (g.oversizedShape? id) (g.tensorImage config operations id) :=
    fun id used => tensorEntry_eq ((FinalizedGraph.mem_usedVariables lowered).1 used) stored weights
  have tensors := mapM_eq_outcome entry
  have operators := mapM_eq_outcome fun o => operatorEntry_eq (o := o) lowered kinds numbered
  have inputs := tensorIndices_eq numbered fun id h =>
    (FinalizedGraph.mem_usedVariables lowered).2 (FinalizedGraph.inputs_subset id h)
  have outputs := tensorIndices_eq numbered fun id h =>
    (FinalizedGraph.mem_usedVariables lowered).2 (FinalizedGraph.outputs_subset id h)
  unfold subgraph
  rw [numbered, tensors, operators, inputs, outputs]
  refine outcome_bind (outcome_bind (outcome_bind ?_))
  exact outcome_bind_ok rfl

theorem content_eq (lowered : g.lower = .ok operations)
    (built : ExportIndex.build g operations = .ok index) :
    content g operations index config =
      outcome (g.fault? operations) (g.image config operations) := by
  obtain ⟨kinds, -, stored, -⟩ := ExportIndex.build_ok built
  have room : checkWeights index = outcome (g.oversizedWeights? operations) () := by
    have total : Word.total (index.slots.map (·.size)) = g.weightBytes operations := by
      simp only [ExportIndex.slots, stored, List.map_cons, List.map_map, Word.total,
        FinalizedGraph.weightBytes, List.foldr_cons]
      exact Nat.zero_add _
    unfold checkWeights FinalizedGraph.oversizedWeights?
    simp only [total]
    split <;> rfl
  have parts : buffers index = ⟨none⟩ :: (g.usedStorages operations).map fun s =>
      ⟨if s.bytes.isEmpty then none else some s.bytes⟩ := by
    simp only [buffers, ExportIndex.slots, stored, List.map_cons, List.map_map]
    rfl
  unfold content
  rw [room, subgraph_eq lowered built, kinds, parts]
  refine outcome_bind ?_
  exact outcome_bind_ok rfl

end Assembly

namespace FinalizedGraph

variable {g : FinalizedGraph} {config : ExportConfig} {operations : List Operation}

theorem toContainer_eq (lowered : g.lower = .ok operations) :
    g.toContainer config = (do
      let m ← outcome (g.fault? operations) (g.image config operations)
      (verify m.encode).mapError .verification
      return g.report operations m) := by
  obtain ⟨index, built⟩ := exists_build lowered
  obtain ⟨kinds, numbered, stored, -⟩ := ExportIndex.build_ok built
  have counts : ∀ m : Model, g.report operations m =
      ⟨m.encode, index.kinds.size, operations.length, index.tensors.size, index.slots.length⟩ := by
    intro m
    simp [report, Numbering.size, kinds, numbered, ExportIndex.slots, stored]
  simp only [counts, toContainer, lowered, built, assemble, Assembly.content_eq lowered built,
    Except.mapError, bind, Except.bind, pure, Except.pure]
  cases g.fault? operations <;> simp only [outcome]

theorem toContainer_ok_iff {e : Export} : g.toContainer config = .ok e ↔
    ∃ operations, g.lower = .ok operations ∧ g.fault? operations = none ∧
      verify (g.image config operations).encode = .ok () ∧
      g.report operations (g.image config operations) = e := by
  cases lowered : g.lower with
  | error fault => simp [toContainer, lowered, Except.mapError, bind, Except.bind]
  | ok operations =>
    rw [toContainer_eq lowered]
    simp only [bind_ok_iff, mapError_ok_iff, outcome_ok_iff, Except.ok.injEq, exists_eq_left']
    constructor
    · rintro ⟨_, ⟨fine, rfl⟩, _, verified, made⟩
      exact ⟨fine, verified, Except.ok.inj made⟩
    · rintro ⟨fine, verified, made⟩
      exact ⟨_, ⟨fine, rfl⟩, (), verified, congrArg Except.ok made⟩

/-- Every tensor that the graph refers to is written with the number of its place. -/
def Marked (g : FinalizedGraph) (operations : List Operation) : Prop :=
  ∀ id ∈ g.graph.references,
    (g.tensorMark operations id).toInt = (g.tensorNumber operations id : Int)

theorem oversizedNumber?_eq_none (lowered : g.lower = .ok operations)
    (fine : g.fault? operations = none) :
    ∀ id ∈ g.graph.references, g.oversizedNumber? operations id = none := by
  simp only [fault?, Option.or_eq_none_iff, List.findSome?_eq_none_iff] at fine
  obtain ⟨-, -, operators, inputs, outputs⟩ := fine
  intro id used
  rw [← references_of_lower lowered] at used
  rcases List.mem_append.1 used with inside | ending
  · obtain ⟨o, member, refers⟩ := List.mem_flatMap.1 inside
    have none := operators o member
    simp only [oversizedOperand?, Option.or_eq_none_iff, List.findSome?_eq_none_iff] at none
    simp only [Operation.references, List.mem_append] at refers
    rcases refers with (input | output) | weight
    · exact none.1 id (List.mem_append_left _ input)
    · exact none.2 id output
    · exact none.1 id (List.mem_append_right _ weight)
  · rcases List.mem_append.1 ending with input | output
    · exact inputs id input
    · exact outputs id output

theorem marked (lowered : g.lower = .ok operations) (fine : g.fault? operations = none)
    (few : (g.usedVariables operations).length < Word.capacity 4) : g.Marked operations := by
  intro id used
  have place := List.idxOf_lt_length_iff.2 ((mem_usedVariables lowered).2 used)
  have word : (g.tensorWord operations id).toNat = g.tensorNumber operations id :=
    toNat_ofNat_of_lt place few
  have none := oversizedNumber?_eq_none lowered fine id used
  unfold oversizedNumber? at none
  split at none
  next small => rw [tensorMark, ExportIndex.toInt_ofNat small, word]
  next => cases none

theorem Marked.injective (marks : g.Marked operations) (lowered : g.lower = .ok operations) :
    ∀ a ∈ g.graph.references, ∀ b ∈ g.graph.references,
      g.tensorMark operations a = g.tensorMark operations b → a = b := by
  intro a ha b hb same
  have numbers := congrArg Int32.toInt same
  rw [marks a ha, marks b hb] at numbers
  exact (List.idxOf_inj ((mem_usedVariables lowered).2 ha)).1 (Int.ofNat.inj numbers)

def summary (g : FinalizedGraph) (config : ExportConfig) (operations : List Operation) : Summary :=
  .ofModel (g.image config operations).stored (g.subgraphImage config operations).stored

theorem read_of_toContainer {e : Export} (h : g.toContainer config = .ok e)
    (small : e.bytes.length ≤ 0x80000000) :
    ∃ operations, g.lower = .ok operations ∧ g.Marked operations ∧
      Summary.ofBytes e.bytes = .ok (g.summary config operations) ∧
      (g.summary config operations).Describes g config operations ∧
      File.root e.bytes.toArray = .ok (g.image config operations).stored := by
  obtain ⟨operations, lowered, fine, verified, exported⟩ := toContainer_ok_iff.1 h
  have bytes : e.bytes = (g.image config operations).encode := by rw [← exported, report]
  rw [bytes] at small ⊢
  obtain ⟨-, read, -⟩ := Model.encode_read small
  obtain ⟨n, accepted⟩ := verify_ok_iff.1 verified
  obtain ⟨-, root, -⟩ := File.accept_ok_iff.1 accepted
  have same : n = (g.image config operations).stored :=
    Option.some.inj ((File.content?_of_root root).symm.trans read)
  subst same
  obtain ⟨index, built⟩ := exists_build lowered
  have made : Assembly.content g operations index config = .ok (g.image config operations) := by
    rw [Assembly.content_eq lowered built, fine, outcome]
  have first : (g.image config operations).stored.subgraphs =
      some [(g.subgraphImage config operations).stored] := by
    rw [Model.stored, image, Option.map_some, List.map_cons, List.map_nil]
  have counted := File.counted_of_content? read
  have few : (g.usedVariables operations).length < Word.capacity 4 := by
    have tensors := counted.tensors _
      (by rw [first, Option.getD_some]; exact List.mem_singleton.2 rfl)
    simpa [subgraphImage, Subgraph.stored] using tensors
  exact ⟨operations, lowered, marked lowered fine few,
    Summary.ofBytes_ok_iff.2 ⟨_, _, _, accepted, first, rfl⟩,
    Assembly.content_describes lowered built made first counted, root⟩

end FinalizedGraph

end LiteModel
