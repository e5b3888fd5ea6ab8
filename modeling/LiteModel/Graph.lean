import LiteModel.Tensor

/-! Model graphs: variables in an arena, layers that refer to them by position, and the variables
that the whole graph takes and gives. A graph under construction may refer to anything; the rules
that make it a model are in `LiteModel.Graph.Finalized`. -/
namespace LiteModel

structure VariableId where
  position : Nat
deriving DecidableEq, Repr, Inhabited

instance : EquivBEq VariableId := inferInstance

namespace VariableId

def render (id : VariableId) : String := "%" ++ id.position.repr

def title (id : VariableId) : String := "VariableId(" ++ id.position.repr ++ ")"

end VariableId

structure Variable where
  name : String
  tensor : Tensor
deriving Repr, Inhabited

namespace Variable

def state (v : Variable) : String :=
  if v.tensor.isAllocated then "allocated"
  else if v.tensor.isInitialized then "placeholder"
  else "uninitialized"

def summary (v : Variable) : String :=
  v.name ++ " " ++ v.tensor.shape.render ++ " " ++ v.tensor.elementType.label ++
    " (" ++ v.state ++ ")"

end Variable

structure Properties where
  entries : List (String × String)
  sorted : entries.Pairwise (fun a b => a.1 < b.1)
deriving Repr

namespace Properties

def empty : Properties := ⟨[], .nil⟩

instance : Inhabited Properties := ⟨empty⟩

instance : DecidableEq Properties := fun a b =>
  if h : a.entries = b.entries then
    .isTrue (by cases a; cases b; simp_all)
  else .isFalse fun e => h (by rw [e])

def insertEntry (key value : String) : List (String × String) → List (String × String)
  | [] => [(key, value)]
  | e :: rest =>
    if key < e.1 then (key, value) :: e :: rest
    else if key = e.1 then (key, value) :: rest
    else e :: insertEntry key value rest

theorem mem_insertEntry {key value : String} {entries : List (String × String)}
    {e : String × String} (h : e ∈ insertEntry key value entries) :
    e = (key, value) ∨ e ∈ entries := by
  induction entries with
  | nil => simpa [insertEntry] using h
  | cons a rest ih =>
    simp only [insertEntry] at h
    split at h
    · simpa using h
    · split at h
      · simp only [List.mem_cons] at h ⊢
        exact h.imp id .inr
      · simp only [List.mem_cons] at h ⊢
        rcases h with h | h
        · exact .inr (.inl h)
        · exact (ih h).imp id .inr

theorem sorted_insertEntry (key value : String) {entries : List (String × String)}
    (h : entries.Pairwise (fun a b => a.1 < b.1)) :
    (insertEntry key value entries).Pairwise (fun a b => a.1 < b.1) := by
  induction entries with
  | nil => simp [insertEntry]
  | cons a rest ih =>
    rw [List.pairwise_cons] at h
    simp only [insertEntry]
    split
    · rename_i lt
      rw [List.pairwise_cons, List.pairwise_cons]
      refine ⟨?_, h⟩
      intro b hb
      rcases List.mem_cons.1 hb with rfl | hb
      · exact lt
      · exact String.lt_trans lt (h.1 b hb)
    · split
      · rename_i eq
        rw [List.pairwise_cons]
        exact ⟨fun b hb => eq ▸ h.1 b hb, h.2⟩
      · rename_i nlt ne
        rw [List.pairwise_cons]
        refine ⟨fun b hb => ?_, ih h.2⟩
        rcases mem_insertEntry hb with rfl | hb
        · exact Std.lt_of_le_of_ne (String.not_lt.1 nlt) fun e => ne e.symm
        · exact h.1 b hb

def insert (p : Properties) (key value : String) : Properties :=
  ⟨insertEntry key value p.entries, sorted_insertEntry key value p.sorted⟩

def ofList (entries : List (String × String)) : Properties :=
  entries.foldl (fun p e => p.insert e.1 e.2) empty

def get? (p : Properties) (key : String) : Option String :=
  (p.entries.find? (·.1 == key)).map (·.2)

end Properties

structure Layer where
  name : String
  layerType : String
  inputs : List VariableId := []
  outputs : List VariableId := []
  weights : List VariableId := []
  properties : Properties := .empty
deriving Repr, Inhabited

namespace Layer

def references (l : Layer) : List VariableId := l.inputs ++ l.outputs ++ l.weights

def summary (l : Layer) : String :=
  l.name ++ " (" ++ l.layerType ++ ") — " ++ l.inputs.length.repr ++ " in, " ++
    l.outputs.length.repr ++ " out, " ++ l.weights.length.repr ++ " weights"

end Layer

structure Graph where
  name : String
  arena : Array Variable := #[]
  layers : List Layer := []
  inputs : List VariableId := []
  outputs : List VariableId := []
deriving Repr, Inhabited

namespace Graph

def lookup (g : Graph) (id : VariableId) : Option Variable := g.arena[id.position]?

def find? (g : Graph) (name : String) : Option VariableId :=
  (g.arena.findIdx? (·.name == name)).map VariableId.mk

def addVariable (g : Graph) (name : String) (tensor : Tensor) : Graph :=
  { g with arena := g.arena.push ⟨name, tensor⟩ }

def addLayer (g : Graph) (layer : Layer) : Graph :=
  { g with layers := g.layers ++ [layer] }

def render (g : Graph) : String :=
  "ModelGraph '" ++ g.name ++ "' (" ++ g.layers.length.repr ++ " layers):\n" ++
    String.join (g.layers.map fun l => "  " ++ l.summary ++ "\n")

end Graph

end LiteModel
