import LiteModel.Graph
import LiteModel.Decimal.Rounding

/-! The rules of a model graph. `Graph.check` goes through a graph in a fixed order and stops at the
first rule that is broken: first the rules on the graph as a whole, then those on each layer in
turn, given what the layers before it declared. A `FinalizedGraph` is a graph that passes. -/
namespace LiteModel

inductive LayerFault where
  | duplicateName
  | unknownVariable (id : VariableId)
  | inputNotProduced (name : String)
  | zeroElements (name : String)
  | producedTwice (name : String)
deriving DecidableEq, Repr

def LayerFault.message : LayerFault → String
  | duplicateName => "duplicate layer name"
  | unknownVariable id => "references unknown variable " ++ id.render
  | inputNotProduced name => "input '" ++ name ++ "' is not produced by an earlier layer"
  | zeroElements name => "activation '" ++ name ++ "' has zero elements"
  | producedTwice name => "output '" ++ name ++ "' is produced more than once"

inductive GraphError where
  | noLayers
  | oversizedTensor (name : String) (shape : Shape)
  | noSuchEndpoint (id : VariableId)
  | invalidLayer (layer : String) (fault : LayerFault)
deriving DecidableEq, Repr

def GraphError.message : GraphError → String
  | noLayers => "invalid model graph: model graph contains no layers"
  | oversizedTensor name shape =>
    "invalid model graph: tensor '" ++ name ++ "' with shape " ++ shape.render ++
      " overflows the addressable size"
  | noSuchEndpoint id =>
    "invalid model graph: graph input/output " ++ id.render ++ " does not exist"
  | invalidLayer layer fault => "invalid layer '" ++ layer ++ "': " ++ fault.message

namespace Graph

def hasVariable (g : Graph) (id : VariableId) : Bool := id.position < g.arena.size

def nameOf (g : Graph) (id : VariableId) : String := ((g.lookup id).map (·.name)).getD ""

def isInitialized (g : Graph) (id : VariableId) : Bool :=
  ((g.lookup id).map (·.tensor.isInitialized)).getD false

structure Progress where
  names : List String := []
  available : List VariableId := []
  produced : List VariableId := []
deriving Repr, Inhabited

def firstRepeat? (seen : List VariableId) : List VariableId → Option VariableId
  | [] => none
  | id :: rest => if seen.contains id then some id else firstRepeat? (id :: seen) rest

def layerFault? (g : Graph) (p : Progress) (l : Layer) : Option LayerFault :=
  if p.names.contains l.name then some .duplicateName
  else match l.references.find? fun id => !g.hasVariable id with
  | some id => some (.unknownVariable id)
  | none =>
  match l.inputs.find? fun id => !p.available.contains id with
  | some id => some (.inputNotProduced (g.nameOf id))
  | none =>
  match (l.inputs ++ l.outputs).find? fun id => !g.isInitialized id with
  | some id => some (.zeroElements (g.nameOf id))
  | none => (firstRepeat? p.produced l.outputs).map fun id => .producedTwice (g.nameOf id)

def Progress.after (p : Progress) (l : Layer) : Progress where
  names := l.name :: p.names
  available := l.outputs ++ p.available
  produced := l.outputs ++ p.produced

def advance (g : Graph) (p : Progress) (l : Layer) : Except GraphError Progress :=
  match g.layerFault? p l with
  | some fault => .error (.invalidLayer l.name fault)
  | none => .ok (p.after l)

def isOversized (v : Variable) : Bool :=
  (v.tensor.shape.byteSize? v.tensor.elementType).isNone

def check (g : Graph) : Except GraphError Progress :=
  if g.layers.isEmpty then .error .noLayers
  else match g.arena.toList.find? isOversized with
  | some v => .error (.oversizedTensor v.name v.tensor.shape)
  | none =>
  match (g.inputs ++ g.outputs).find? fun id => !g.hasVariable id with
  | some id => .error (.noSuchEndpoint id)
  | none => g.layers.foldlM g.advance { available := g.inputs }

end Graph

structure FinalizedGraph where
  graph : Graph
  accepted : ∃ p, graph.check = .ok p

namespace Graph

def finalize (g : Graph) : Except GraphError FinalizedGraph :=
  match h : g.check with
  | .ok p => .ok ⟨g, p, h⟩
  | .error e => .error e

def weightBytes (g : Graph) : Nat :=
  let ids := g.layers.flatMap (·.weights)
  let storages := ids.filterMap fun id => (g.lookup id).bind (·.tensor.storage)
  let distinct := storages.foldl (fun seen s => if seen.contains s then seen else seen ++ [s]) []
  Word.total (distinct.map (·.size))

def summary (g : Graph) : String :=
  "Model '" ++ g.name ++ "': " ++ g.layers.length.repr ++ " layers, " ++
    g.arena.size.repr ++ " tensors, " ++ Decimal.kilobytes g.weightBytes ++ " KB weights"

end Graph

end LiteModel
