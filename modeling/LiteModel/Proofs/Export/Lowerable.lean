import LiteModel.Proofs.Decimal.Literal
import LiteModel.Proofs.Export.Lowering

/-! Which layers become operations, and which one is named when a graph has others. An operator
reads one property at most, so a layer is judged by its type and by that property. -/
namespace LiteModel

open Sequencing

def SameButCase (a b : String) : Prop := a.map Char.toLower = b.map Char.toLower

theorem exists_sameButCase_iff {names : List String}
    (lower : ∀ name ∈ names, name.toList.map Char.toLower = name.toList) {text : String} :
    (∃ name ∈ names, SameButCase text name) ↔ text.map Char.toLower ∈ names := by
  have kept : ∀ name ∈ names, name.map Char.toLower = name := by
    intro name member
    rw [← String.toList_inj, String.toList_map, lower name member]
  constructor
  · rintro ⟨name, member, same⟩
    rwa [same, kept name member]
  · intro member
    exact ⟨_, member, (kept _ member).symm⟩

namespace Activation

def names : Activation → List String
  | none => ["none", "linear"]
  | relu => ["relu"]
  | reluN1To1 => ["relu_n1_to_1"]
  | relu6 => ["relu6"]
  | tanh => ["tanh"]

theorem ofName?_eq_some_iff {name : String} {a : Activation} :
    ofName? name = some a ↔ name ∈ a.names := by
  constructor
  · intro h
    unfold ofName? at h
    split at h <;> cases h <;> simp [names]
  · intro member
    cases a <;> simp only [names, List.mem_cons, List.not_mem_nil, or_false] at member <;>
      rcases member with rfl | rfl <;> rfl

theorem ofProperty?_eq_some_iff {value : String} {a : Activation} :
    ofProperty? value = some a ↔ ∃ name ∈ a.names, SameButCase value name := by
  have lower : ∀ name ∈ a.names, name.toList.map Char.toLower = name.toList := by
    cases a <;> decide
  rw [ofProperty?, ofName?_eq_some_iff, exists_sameButCase_iff lower]

end Activation

namespace OperatorKind

def names : OperatorKind → List String
  | fullyConnected => ["fully_connected", "fc", "dense", "linear"]
  | add => ["add", "addition"]
  | relu => ["relu"]
  | logistic => ["logistic", "sigmoid"]
  | tanh => ["tanh"]
  | softmax => ["softmax"]
  | reshape => ["reshape", "flatten"]

theorem ofName?_eq_some_iff {name : String} {kind : OperatorKind} :
    ofName? name = some kind ↔ name ∈ kind.names := by
  constructor
  · intro h
    unfold ofName? at h
    split at h <;> cases h <;> simp [names]
  · intro member
    cases kind <;> simp only [names, List.mem_cons, List.not_mem_nil, or_false] at member <;>
      rcases member with rfl | rfl | rfl | rfl <;> rfl

theorem ofLayerType?_eq_some_iff {layerType : String} {kind : OperatorKind} :
    ofLayerType? layerType = some kind ↔ ∃ name ∈ kind.names, SameButCase layerType name := by
  have lower : ∀ name ∈ kind.names, name.toList.map Char.toLower = name.toList := by
    cases kind <;> decide
  rw [ofLayerType?, ofName?_eq_some_iff, exists_sameButCase_iff lower]

def property? : OperatorKind → Option String
  | fullyConnected => some "activation"
  | softmax => some "beta"
  | _ => none

/-- The values that the property may have: the name of an activation, or a number that rounds to a
finite one, with any blanks around. -/
def Permits : OperatorKind → String → Prop
  | fullyConnected, value => ∃ a : Activation, ∃ name ∈ a.names, SameButCase value name
  | softmax, value =>
    ∃ q, Decimal.Denotes (Text.trim value.toList) q ∧ |q| < Decimal.Binary32.overflow
  | _, _ => True

end OperatorKind

namespace Layer

def Resolves (l : Layer) (kind : OperatorKind) : Prop :=
  ∃ name ∈ kind.names, SameButCase l.layerType name

/-- The layer's type stands for the operator, and the operator's property can be read if the layer
has it. -/
structure Lowers (l : Layer) (kind : OperatorKind) : Prop where
  resolves : l.Resolves kind
  permitted : ∀ key ∈ kind.property?, ∀ value ∈ l.properties.get? key, kind.Permits value

/-- What is wrong with a layer: its type, or else the property of the operator that it stands for. -/
inductive Refused (l : Layer) : LoweringError → Prop where
  | unsupported (unknown : ∀ kind, ¬ l.Resolves kind) :
    Refused l (.unsupportedOperator l.name l.layerType)
  | invalid {kind : OperatorKind} {key value : String} (resolves : l.Resolves kind)
      (own : kind.property? = some key) (given : l.properties.get? key = some value)
      (unread : ¬ kind.Permits value) : Refused l (.invalidProperty l.name key value)

/-- Layers that only differ in properties that the operator does not read. -/
structure Alike (l k : Layer) : Prop where
  name : l.name = k.name
  layerType : l.layerType = k.layerType
  inputs : l.inputs = k.inputs
  outputs : l.outputs = k.outputs
  weights : l.weights = k.weights
  property : ∀ kind, l.Resolves kind → ∀ key ∈ kind.property?,
    l.properties.get? key = k.properties.get? key

variable {l : Layer} {kind other : OperatorKind}

theorem resolves_iff : l.Resolves kind ↔ OperatorKind.ofLayerType? l.layerType = some kind :=
  OperatorKind.ofLayerType?_eq_some_iff.symm

theorem Resolves.unique (h : l.Resolves kind) (again : l.Resolves other) : kind = other :=
  Option.some.inj ((resolves_iff.1 h).symm.trans (resolves_iff.1 again))

/-- A layer lowers as some operator unless something is wrong with it. -/
theorem exists_lowers_iff : (∃ kind, l.Lowers kind) ↔ ¬ ∃ e, l.Refused e := by
  constructor
  · rintro ⟨kind, resolves, permitted⟩ ⟨_, unknown | ⟨again, own, given, unread⟩⟩
    · exact unknown kind resolves
    · cases resolves.unique again
      exact unread (permitted _ own _ given)
  · intro fine
    by_contra none
    by_cases resolves : ∃ kind, l.Resolves kind
    · obtain ⟨kind, resolves⟩ := resolves
      refine none ⟨kind, resolves, fun key own value given => ?_⟩
      by_contra unread
      exact fine ⟨_, .invalid resolves own given unread⟩
    · exact fine ⟨_, .unsupported (not_exists.1 resolves)⟩

end Layer

namespace Operation

variable {l k : Layer} {e : LoweringError}

theorem isSome_beta?_iff {value : String} :
    (beta? value).isSome = true ↔ OperatorKind.softmax.Permits value :=
  Decimal.Binary32.isSome_ofText?_iff

theorem isSome_ofProperty?_iff {value : String} :
    (Activation.ofProperty? value).isSome = true ↔ OperatorKind.fullyConnected.Permits value := by
  rw [Option.isSome_iff_exists]
  exact exists_congr fun a => Activation.ofProperty?_eq_some_iff

theorem property_error_iff {α : Type} {key : String} {default : α} {read? : String → Option α} :
    property l key default read? = .error e ↔ ∃ value, l.properties.get? key = some value ∧
      ¬ (read? value).isSome = true ∧ e = .invalidProperty l.name key value := by
  unfold property
  cases given : l.properties.get? key with
  | none => simp
  | some value =>
    cases read : read? value with
    | none => simpa [read] using eq_comm
    | some a => simp [read]

theorem optionsOf_error_iff {kind : OperatorKind} :
    optionsOf kind l = .error e ↔ ∃ key value, kind.property? = some key ∧
      l.properties.get? key = some value ∧ ¬ kind.Permits value ∧
      e = .invalidProperty l.name key value := by
  cases kind <;>
    simp [optionsOf, bind_error_iff, property_error_iff, OperatorKind.property?,
      isSome_beta?_iff, isSome_ofProperty?_iff, pure, Except.pure]

theorem ofLayer_error_iff : ofLayer l = .error e ↔ l.Refused e := by
  unfold ofLayer
  cases known : OperatorKind.ofLayerType? l.layerType with
  | none =>
    have unknown : ∀ kind, ¬ l.Resolves kind := fun kind resolves => by
      cases known.symm.trans (Layer.resolves_iff.1 resolves)
    constructor
    · rintro ⟨⟩
      exact .unsupported unknown
    · rintro (_ | ⟨resolves, -, -, -⟩)
      · rfl
      · exact absurd resolves (unknown _)
  | some kind =>
    have resolves : l.Resolves kind := Layer.resolves_iff.2 known
    dsimp only
    simp only [bind_error_iff, optionsOf_error_iff, pure, Except.pure, reduceCtorEq, and_false,
      exists_false, or_false]
    constructor
    · rintro ⟨key, value, own, given, unread, rfl⟩
      exact .invalid resolves own given unread
    · rintro (unknown | ⟨again, own, given, unread⟩)
      · exact absurd resolves (unknown kind)
      · cases resolves.unique again
        exact ⟨_, _, own, given, unread, rfl⟩

theorem exists_ofLayer_iff : (∃ o, ofLayer l = .ok o) ↔ ∃ kind, l.Lowers kind := by
  rw [Layer.exists_lowers_iff]
  simp only [← ofLayer_error_iff]
  cases ofLayer l <;> simp

theorem lowers_of_ofLayer {o : Operation} (h : ofLayer l = .ok o) : l.Lowers o.kind := by
  obtain ⟨kind, lowers⟩ := exists_ofLayer_iff.1 ⟨o, h⟩
  cases lowers.resolves.unique (Layer.resolves_iff.2 (ofLayer_ok h).1)
  exact lowers

theorem property_congr {α : Type} {key : String} {default : α} {read? : String → Option α}
    (name : l.name = k.name) (same : l.properties.get? key = k.properties.get? key) :
    property l key default read? = property k key default read? := by
  rw [property, property, name, same]

theorem optionsOf_congr {kind : OperatorKind} (name : l.name = k.name)
    (same : ∀ key ∈ kind.property?, l.properties.get? key = k.properties.get? key) :
    optionsOf kind l = optionsOf kind k := by
  cases kind with
  | fullyConnected => rw [optionsOf, optionsOf, property_congr name (same _ rfl)]
  | softmax => rw [optionsOf, optionsOf, property_congr name (same _ rfl)]
  | _ => rfl

theorem ofLayer_congr (alike : l.Alike k) : ofLayer l = ofLayer k := by
  obtain ⟨name, layerType, inputs, outputs, weights, property⟩ := alike
  unfold ofLayer
  rw [← layerType]
  cases known : OperatorKind.ofLayerType? l.layerType with
  | none => rw [name]
  | some kind =>
    have same := property kind (Layer.resolves_iff.2 known)
    dsimp only
    rw [optionsOf_congr name same, name, inputs, outputs, weights]

end Operation

namespace FinalizedGraph

variable {g : FinalizedGraph} {operations : List Operation}

theorem exists_lower_iff :
    (∃ operations, g.lower = .ok operations) ↔ ∀ l ∈ g.graph.layers, ∃ kind, l.Lowers kind := by
  rw [lower, exists_mapM_ok_iff]
  exact forall₂_congr fun l _ => Operation.exists_ofLayer_iff

theorem pairs_of_lower (lowered : g.lower = .ok operations) :
    List.Forall₂ (fun l o => l.Lowers o.kind ∧ o.name = l.name ∧ o.inputs = l.inputs ∧
      o.outputs = l.outputs ∧ o.weights = l.weights) g.graph.layers operations :=
  forall₂_of_mapM lowered fun _ _ _ h =>
    ⟨Operation.lowers_of_ofLayer h, (Operation.ofLayer_ok h).2⟩

theorem lower_error_iff {e : LoweringError} :
    g.lower = .error e ↔ ∃ before l after, g.graph.layers = before ++ l :: after ∧
      (∀ k ∈ before, ∃ kind, k.Lowers kind) ∧ l.Refused e := by
  rw [lower, mapM_error_iff]
  simp only [Operation.exists_ofLayer_iff, Operation.ofLayer_error_iff]

theorem lower_congr {h : FinalizedGraph}
    (alike : List.Forall₂ Layer.Alike g.graph.layers h.graph.layers) : h.lower = g.lower :=
  (mapM_congr₂ (alike.imp fun _ _ => Operation.ofLayer_congr)).symm

/-- A graph is lowered when every layer lowers as some operator: then there is one operation for each
layer, in the order of the layers, of that operator and with the layer's name and variables. A graph
that is not lowered has a first layer that does not, and the error says what is wrong with it.
Properties that no operator reads make no difference. -/
theorem lower_all_or_first (g : FinalizedGraph) :
    ((∃ operations, g.lower = .ok operations) ↔ ∀ l ∈ g.graph.layers, ∃ kind, l.Lowers kind) ∧
    (∀ operations, g.lower = .ok operations → List.Forall₂ (fun l o => l.Lowers o.kind ∧
      o.name = l.name ∧ o.inputs = l.inputs ∧ o.outputs = l.outputs ∧ o.weights = l.weights)
      g.graph.layers operations) ∧
    (∀ e, g.lower = .error e ↔ ∃ before l after, g.graph.layers = before ++ l :: after ∧
      (∀ k ∈ before, ∃ kind, k.Lowers kind) ∧ l.Refused e) ∧
    (∀ h : FinalizedGraph, List.Forall₂ Layer.Alike g.graph.layers h.graph.layers →
      h.lower = g.lower) :=
  ⟨exists_lower_iff, fun _ => pairs_of_lower, fun _ => lower_error_iff, fun _ => lower_congr⟩

end FinalizedGraph

end LiteModel
