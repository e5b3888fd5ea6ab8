import LiteModel.Proofs.Export.Names

/-! Where the tensors of a container have their values from: the caller, data of their own, or an
operator. An export gives a tensor the sources that its variable has in the graph, no more and no
fewer. Neither finalizing nor exporting asks for one source only, so a variable with several roles
becomes a tensor with several sources. -/
namespace LiteModel

open Container Sequencing

inductive Source where
  | fed
  | constant
  | computed
deriving DecidableEq, Repr

def Container.Summary.HasSource (s : Summary) (t : Int32) : Source → Prop
  | .fed => t ∈ s.inputs
  | .constant => ∃ x, s.tensorAt? t = some x ∧ x.buffer ≠ 0
  | .computed => ∃ o ∈ s.operators, t ∈ o.outputs

/-- A role of a variable. A weight is constant if it is allocated and its shape has elements. -/
def Graph.HasSource (g : Graph) (id : VariableId) : Source → Prop
  | .fed => id ∈ g.inputs
  | .constant => id ∈ g.weights ∧ ∃ v, g.lookup id = some v ∧ v.tensor.isAllocated = true ∧
      v.tensor.isInitialized = true
  | .computed => ∃ l ∈ g.layers, id ∈ l.outputs

def Container.Summary.SingleSourced (s : Summary) : Prop :=
  ∀ t x, s.tensorAt? t = some x → ∀ a b, s.HasSource t a → s.HasSource t b → a = b

def Graph.SingleSourced (g : Graph) : Prop :=
  ∀ id ∈ g.references, ∀ a b, g.HasSource id a → g.HasSource id b → a = b

/-- Each tensor stands for one variable of the graph and has its sources, and no two outputs of
operators write one tensor. -/
structure Container.Summary.Sourced (g : Graph) (number : VariableId → Int32) (s : Summary) :
    Prop where
  numbered : ∀ t, (∃ x, s.tensorAt? t = some x) ↔ ∃ id ∈ g.references, number id = t
  apart : ∀ a ∈ g.references, ∀ b ∈ g.references, number a = number b → a = b
  sources : ∀ id ∈ g.references, ∀ a, s.HasSource (number id) a ↔ g.HasSource id a
  once : (s.operators.flatMap (·.outputs)).Nodup

theorem Container.Summary.Sourced.singleSourced_iff {g : Graph} {number : VariableId → Int32}
    {s : Summary} (h : s.Sourced g number) : s.SingleSourced ↔ g.SingleSourced := by
  constructor
  · intro single id used a b first second
    obtain ⟨x, tensor⟩ := (h.numbered (number id)).2 ⟨id, used, rfl⟩
    exact single _ x tensor a b ((h.sources id used a).2 first) ((h.sources id used b).2 second)
  · intro single t x tensor a b first second
    obtain ⟨id, used, rfl⟩ := (h.numbered t).1 ⟨x, tensor⟩
    exact single id used a b ((h.sources id used a).1 first) ((h.sources id used b).1 second)

namespace FinalizedGraph

variable {g : FinalizedGraph} {config : ExportConfig} {operations : List Operation}

theorem hasSource_constant_iff {id : VariableId} : g.graph.HasSource id .constant ↔
    id ∈ g.graph.weights ∧ ∃ s, g.storage? id = some s := by
  simp only [Graph.HasSource, storage?_eq_some_iff, Tensor.isAllocated, Option.isSome_iff_exists]
  refine and_congr_right fun _ => ⟨?_, ?_⟩
  · rintro ⟨v, found, ⟨s, stored⟩, filled⟩
    exact ⟨s, v, found, stored, filled⟩
  · rintro ⟨s, v, found, stored, filled⟩
    exact ⟨v, found, ⟨s, stored⟩, filled⟩

theorem exists_tensorAt?_iff (lowered : g.lower = .ok operations)
    (marks : g.Marked operations) {t : Int32} :
    (∃ x, (g.summary config operations).tensorAt? t = some x) ↔
      ∃ id ∈ g.graph.references, g.tensorMark operations id = t := by
  constructor
  · rintro ⟨x, tensor⟩
    unfold Summary.tensorAt? at tensor
    split at tensor
    next positive =>
      rw [summary_tensors, List.getElem?_map, Option.map_eq_some_iff] at tensor
      obtain ⟨id, place, -⟩ := tensor
      have used := (mem_usedVariables lowered).1 (List.mem_of_getElem? place)
      refine ⟨id, used, Int32.toInt_inj.1 ?_⟩
      obtain ⟨below, here⟩ := List.getElem?_eq_some_iff.1 place
      have distinct : (g.usedVariables operations).Nodup := Numbering.nodup_eraseDups _
      rw [marks _ used, tensorNumber, ← here, distinct.idxOf_getElem,
        Int.toNat_of_nonneg positive]
    next => cases tensor
  · rintro ⟨id, used, rfl⟩
    exact ⟨_, tensorAt?_tensorMark lowered marks used⟩

theorem tensorMark_mem_iff (lowered : g.lower = .ok operations) (marks : g.Marked operations)
    {id : VariableId} (used : id ∈ g.graph.references) {ids : List VariableId}
    (known : ∀ a ∈ ids, a ∈ g.graph.references) :
    g.tensorMark operations id ∈ ids.map (g.tensorMark operations) ↔ id ∈ ids := by
  rw [List.mem_map]
  constructor
  · rintro ⟨a, member, same⟩
    exact marks.injective lowered a (known a member) id used same ▸ member
  · exact fun member => ⟨id, member, rfl⟩

theorem hasSource_iff (lowered : g.lower = .ok operations) (marks : g.Marked operations)
    (described : (g.summary config operations).Describes g config operations) {id : VariableId}
    (used : id ∈ g.graph.references) (a : Source) :
    (g.summary config operations).HasSource (g.tensorMark operations id) a ↔
      g.graph.HasSource id a := by
  have runs : (g.summary config operations).Runs g.graph _ := summary_runs lowered marks
  cases a with
  | fed =>
    rw [Summary.HasSource, runs.inputs]
    exact tensorMark_mem_iff lowered marks used inputs_subset
  | constant =>
    rw [hasSource_constant_iff, ← buffer_ne_zero_iff lowered described used, Summary.HasSource,
      tensorAt?_tensorMark lowered marks used]
    simp
  | computed =>
    have outputs := tensorMark_mem_iff lowered marks used
      fun _ output => Graph.layer_outputs_subset output
    rw [← runs.flatMap_outputs, List.mem_flatMap, List.mem_flatMap] at outputs
    exact outputs

theorem summary_sourced (lowered : g.lower = .ok operations) (marks : g.Marked operations)
    (described : (g.summary config operations).Describes g config operations) :
    (g.summary config operations).Sourced g.graph (g.tensorMark operations) where
  numbered _ := exists_tensorAt?_iff lowered marks
  apart := marks.injective lowered
  sources _ := hasSource_iff lowered marks described
  once := (summary_runs lowered marks).once g.isAccepted

end FinalizedGraph

/-- The tensors of an export have the sources of their variables. So each has one source at most
just when no variable has two roles in the graph. -/
theorem toContainer_sources {g : FinalizedGraph} {config : ExportConfig} {e : Export}
    (h : g.toContainer config = .ok e) (small : e.bytes.length ≤ 0x80000000) :
    ∃ s number, Summary.ofBytes e.bytes = .ok s ∧ s.Sourced g.graph number ∧
      (s.SingleSourced ↔ g.graph.SingleSourced) := by
  obtain ⟨operations, lowered, marks, read, described, -⟩ :=
    FinalizedGraph.read_of_toContainer h small
  have sourced := FinalizedGraph.summary_sourced lowered marks described
  exact ⟨_, _, read, sourced, sourced.singleSourced_iff⟩

theorem toContainer_sources_biased : ∃ e, biased.toContainer {} = .ok e ∧ e.bytes.length = 400 ∧
    ∃ s number, Summary.ofBytes e.bytes = .ok s ∧ s.Sourced biased.graph number ∧
      (s.SingleSourced ↔ biased.graph.SingleSourced) := by
  obtain ⟨e, exported, length⟩ := biased_exported
  exact ⟨e, exported, length, toContainer_sources exported (by omega)⟩

def echo : FinalizedGraph where
  graph := {
    name := "echo"
    arena := #[⟨"x", .zeros ⟨0⟩ (.vector 1) .f32⟩]
    layers := [⟨"act", "relu", [⟨0⟩], [⟨0⟩], [⟨0⟩], .empty⟩]
    inputs := [⟨0⟩]
    outputs := [⟨0⟩] }
  accepted := ⟨_, by cbv⟩

def echoOperations : List Operation := [⟨"act", .relu, [⟨0⟩], [⟨0⟩], [⟨0⟩], none⟩]

theorem echo_hasSource (a : Source) : echo.graph.HasSource ⟨0⟩ a := by
  cases a with
  | fed => exact List.mem_singleton_self _
  | constant => exact ⟨List.mem_singleton_self _, _, rfl, rfl, rfl⟩
  | computed => exact ⟨_, List.mem_singleton_self _, List.mem_singleton_self _⟩

set_option maxRecDepth 4000 in
/-- The only tensor of an export can have all sources at once. -/
theorem toContainer_echo_not_singleSourced : ∃ e s, echo.toContainer {} = .ok e ∧
    e.bytes.length = 340 ∧ Summary.ofBytes e.bytes = .ok s ∧ (∃ x, s.tensorAt? 0 = some x) ∧
    (∀ a, s.HasSource 0 a) ∧ ¬s.SingleSourced := by
  have lowered : echo.lower = .ok echoOperations := by cbv
  have length : (echo.image {} echoOperations).encode.length = 340 := by cbv
  have tables : (echo.image {} echoOperations).tableCount = 7 := by cbv
  have size : (echo.image {} echoOperations).footprint.size = 413 := by cbv
  obtain ⟨e, exported, length⟩ := FinalizedGraph.exists_export_of_sizes lowered (by cbv) (by decide)
    length tables size (by decide)
  obtain ⟨_, again, marks, read, described, -⟩ :=
    FinalizedGraph.read_of_toContainer exported (by omega)
  cases lowered.symm.trans again
  have used : ⟨0⟩ ∈ echo.graph.references := by decide
  have mark : echo.tensorMark echoOperations ⟨0⟩ = 0 := by cbv
  have tensor : (echo.summary {} echoOperations).tensorAt? (echo.tensorMark echoOperations ⟨0⟩) =
      some _ := FinalizedGraph.tensorAt?_tensorMark lowered marks used
  have sources := fun a =>
    (FinalizedGraph.hasSource_iff lowered marks described used a).2 (echo_hasSource a)
  rw [mark] at tensor
  simp only [mark] at sources
  refine ⟨e, _, exported, length, read, ⟨_, tensor⟩, sources, fun single => ?_⟩
  have same := single 0 _ tensor .fed .computed (sources .fed) (sources .computed)
  cases same

end LiteModel
