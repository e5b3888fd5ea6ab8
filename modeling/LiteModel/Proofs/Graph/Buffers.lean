import LiteModel.Manifest.Graph
import LiteModel.Proofs.Graph.Blame

/-! Graphs up to the ids of their storages. No rule of a graph reads a storage, so a graph whose
storages get other ids passes or fails as it did, and so does the manifest that it is made of. -/
namespace LiteModel

open Sequencing

def Tensor.rebuffer (f : BufferId → BufferId) (x : Tensor) : Tensor :=
  { x with storage := x.storage.map fun s => { s with id := f s.id } }

def Variable.rebuffer (f : BufferId → BufferId) (v : Variable) : Variable :=
  { v with tensor := v.tensor.rebuffer f }

def Graph.rebuffer (f : BufferId → BufferId) (g : Graph) : Graph :=
  { g with arena := g.arena.map (Variable.rebuffer f) }

namespace Graph

def KeepsApart (f : BufferId → BufferId) (g : Graph) : Prop := ∀ a b s t,
  g.storage? a = some s → g.storage? b = some t → f s.id = f t.id → s.id = t.id

variable {f : BufferId → BufferId} {g : Graph}

theorem lookup_rebuffer (id : VariableId) :
    (g.rebuffer f).lookup id = (g.lookup id).map (Variable.rebuffer f) := by
  simp [rebuffer, lookup]

theorem hasVariable_rebuffer (id : VariableId) :
    (g.rebuffer f).hasVariable id = g.hasVariable id := by
  simp [rebuffer, hasVariable]

theorem nameOf_rebuffer (id : VariableId) : (g.rebuffer f).nameOf id = g.nameOf id := by
  rw [nameOf, nameOf, lookup_rebuffer, Option.map_map]
  rfl

theorem isInitialized_rebuffer (id : VariableId) :
    (g.rebuffer f).isInitialized id = g.isInitialized id := by
  rw [isInitialized, isInitialized, lookup_rebuffer, Option.map_map]
  rfl

theorem layerFault?_rebuffer (p : Progress) (l : Layer) :
    (g.rebuffer f).layerFault? p l = g.layerFault? p l := by
  simp only [layerFault?, hasVariable_rebuffer, nameOf_rebuffer, isInitialized_rebuffer]

theorem advance_rebuffer : (g.rebuffer f).advance = g.advance := by
  funext p l
  rw [advance, advance, layerFault?_rebuffer]

theorem check_rebuffer : (g.rebuffer f).check = g.check := by
  have sizes : (g.rebuffer f).arena.toList.find? isOversized =
      (g.arena.toList.find? isOversized).map (Variable.rebuffer f) := by
    simp only [rebuffer, Array.toList_map, List.find?_map]
    rfl
  unfold check
  simp only [sizes, hasVariable_rebuffer, advance_rebuffer]
  cases g.arena.toList.find? isOversized <;> rfl

end Graph

def FinalizedGraph.rebuffer (f : BufferId → BufferId) (g : FinalizedGraph) : FinalizedGraph :=
  ⟨g.graph.rebuffer f, by rw [Graph.check_rebuffer]; exact g.accepted⟩

theorem Graph.finalize_rebuffer {f : BufferId → BufferId} {g : Graph} :
    (g.rebuffer f).finalize = g.finalize.map (FinalizedGraph.rebuffer f) := by
  cases done : g.finalize with
  | ok accepted =>
    cases finalize_ok done
    exact finalize_graph (accepted.rebuffer f)
  | error e => exact finalize_error_iff.2 (check_rebuffer.trans (finalize_error_iff.1 done))

namespace Manifest

variable {m : Manifest} {v w : Weights} {f : BufferId → BufferId}

theorem variableFor_rebuffer {d : TensorDeclaration}
    (same : d.data = .safetensors → w.find? d.name = (v.find? d.name).map (Tensor.rebuffer f)) :
    m.variableFor w d = (m.variableFor v d).map (Variable.rebuffer f) := by
  unfold variableFor
  cases m.elementTypeOf d with
  | error fault => rfl
  | ok type =>
    dsimp only [Except.mapError, bind, Except.bind]
    cases data : d.data with
    | none => rfl
    | safetensors =>
      rw [same data]
      cases v.find? d.name with
      | none => rfl
      | some x =>
        dsimp only [Option.map_some, Tensor.rebuffer]
        split <;> rfl

/-- Weights that differ by the ids of their storages give graphs that do, or fail alike. Only those
of the tensors that are declared with data matter. -/
theorem toGraph_rebuffer (same : ∀ d ∈ m.tensors, d.data = .safetensors →
    w.find? d.name = (v.find? d.name).map (Tensor.rebuffer f)) :
    m.toGraph w = (m.toGraph v).map (FinalizedGraph.rebuffer f) := by
  have arenas : m.tensors.mapM (m.variableFor w) =
      (m.tensors.mapM (m.variableFor v)).map (List.map (Variable.rebuffer f)) :=
    mapM_congr_map fun d declared => variableFor_rebuffer (same d declared)
  unfold toGraph
  rw [arenas]
  cases m.validate with
  | error fault => rfl
  | ok =>
  cases m.tensors.mapM (m.variableFor v) with
  | error e => rfl
  | ok arena =>
  cases m.layers.mapM m.layerFor with
  | error e => rfl
  | ok layers =>
  cases m.resolve m.name m.inputs with
  | error e => rfl
  | ok inputs =>
  cases m.resolve m.name m.outputs with
  | error e => rfl
  | ok outputs =>
    have renamed : (⟨m.name, (arena.map (Variable.rebuffer f)).toArray, layers, inputs, outputs⟩ :
        Graph) = Graph.rebuffer f ⟨m.name, arena.toArray, layers, inputs, outputs⟩ := by
      simp [Graph.rebuffer]
    dsimp only [Except.map, Except.mapError, bind, Except.bind]
    rw [renamed, Graph.finalize_rebuffer]
    cases Graph.finalize _ <;> rfl

end Manifest

end LiteModel
