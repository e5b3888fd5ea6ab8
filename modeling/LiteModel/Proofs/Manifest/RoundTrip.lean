import LiteModel.Manifest.Printer
import LiteModel.Manifest.Reader
import LiteModel.Proofs.Json.Decoding

/-! Manifests come back from the text that they are printed as. Each record conveys its fields,
whatever they are; the properties of a layer are printed in the order of their keys, so putting them
in one by one builds the same map. -/
namespace LiteModel
open Json

namespace Properties

theorem insertEntry_of_last {key value : String} {entries : List (String × String)}
    (last : ∀ e ∈ entries, e.1 < key) :
    insertEntry key value entries = entries ++ [(key, value)] := by
  induction entries with
  | nil => rfl
  | cons e rest ih =>
    obtain ⟨first, others⟩ := List.forall_mem_cons.1 last
    have apart : key ≠ e.1 := fun same => String.lt_irrefl _ (same ▸ first)
    rw [insertEntry, if_neg (String.lt_asymm first), if_neg apart, ih others, List.cons_append]

theorem entries_foldl_insert {p : Properties} {after : List (String × String)}
    (sorted : (p.entries ++ after).Pairwise (·.1 < ·.1)) :
    (after.foldl (fun p e => p.insert e.1 e.2) p).entries = p.entries ++ after := by
  induction after generalizing p with
  | nil => rw [List.foldl_nil, List.append_nil]
  | cons e rest ih =>
    have inserted : (p.insert e.1 e.2).entries = p.entries ++ [e] :=
      insertEntry_of_last fun b member =>
        (List.pairwise_append.1 sorted).2.2 b member e List.mem_cons_self
    rw [List.append_cons, ← inserted] at sorted ⊢
    exact ih sorted

theorem ofList_entries (p : Properties) : ofList p.entries = p := by
  have built := entries_foldl_insert (p := empty) p.sorted
  cases p
  rwa [ofList, mk.injEq]

end Properties

namespace DataSource

theorem conveys_label (d : DataSource) : Conveys read (Json.Text.string d.label) d :=
  ⟨_, denotes_string _, by cases d <;> rfl⟩

end DataSource

namespace TensorDeclaration

theorem conveys_print (t : TensorDeclaration) : Conveys read t.print t := by
  obtain ⟨name, denotesName, readsName⟩ := conveys_string t.name
  obtain ⟨dims, denotesDims, readsDims⟩ := conveys_list fun d (_ : d ∈ t.dims) => conveys_size d
  obtain ⟨label, denotesLabel, readsLabel⟩ := conveys_option t.elementType
  obtain ⟨data, denotesData, readsData⟩ := DataSource.conveys_label t.data
  refine ⟨.object [(some "name", name), (some "shape", dims), (some "dtype", label),
      (some "data", data)] .closed,
    denotes_object (.cons ⟨rfl, denotesName⟩ (.cons ⟨rfl, denotesDims⟩
      (.cons ⟨rfl, denotesLabel⟩ (.cons ⟨rfl, denotesData⟩ .nil)))), ?_⟩
  simp [read, Fields.add, Fields.finish, Tree.readKey, Tree.fill, Tree.require, Tree.ended, bind,
    Except.bind, pure, Except.pure, readsName, readsDims, readsLabel, readsData]

end TensorDeclaration

namespace LayerDeclaration

theorem conveys_properties (p : Properties) : Conveys readProperties
    (Json.Text.object (p.entries.map fun (k, v) => (k, Json.Text.string v))) p := by
  obtain ⟨t, denotes, reads⟩ := conveys_pairs p.entries
  exact ⟨t, denotes, by rw [readProperties, reads]; exact congrArg _ p.ofList_entries⟩

theorem conveys_print (l : LayerDeclaration) : Conveys read l.print l := by
  obtain ⟨name, denotesName, readsName⟩ := conveys_string l.name
  obtain ⟨type, denotesType, readsType⟩ := conveys_string l.layerType
  obtain ⟨inputs, denotesInputs, readsInputs⟩ := conveys_strings l.inputs
  obtain ⟨outputs, denotesOutputs, readsOutputs⟩ := conveys_strings l.outputs
  obtain ⟨weights, denotesWeights, readsWeights⟩ := conveys_strings l.weights
  obtain ⟨properties, denotesProperties, readsProperties⟩ := conveys_properties l.properties
  refine ⟨.object [(some "name", name), (some "layer_type", type), (some "inputs", inputs),
      (some "outputs", outputs), (some "weights", weights),
      (some "properties", properties)] .closed,
    denotes_object (.cons ⟨rfl, denotesName⟩ (.cons ⟨rfl, denotesType⟩ (.cons ⟨rfl, denotesInputs⟩
      (.cons ⟨rfl, denotesOutputs⟩ (.cons ⟨rfl, denotesWeights⟩
        (.cons ⟨rfl, denotesProperties⟩ .nil)))))), ?_⟩
  simp [read, Fields.add, Fields.finish, strings, Tree.readKey, Tree.fill, Tree.require,
    Tree.ended, bind, Except.bind, pure, Except.pure, readsName, readsType, readsInputs,
    readsOutputs, readsWeights, readsProperties]

end LayerDeclaration

namespace Manifest

theorem conveys_print (m : Manifest) : Conveys read m.print m := by
  obtain ⟨name, denotesName, readsName⟩ := conveys_string m.name
  obtain ⟨label, denotesLabel, readsLabel⟩ := conveys_string m.elementType
  obtain ⟨inputs, denotesInputs, readsInputs⟩ := conveys_strings m.inputs
  obtain ⟨outputs, denotesOutputs, readsOutputs⟩ := conveys_strings m.outputs
  obtain ⟨tensors, denotesTensors, readsTensors⟩ :=
    conveys_list fun t (_ : t ∈ m.tensors) => t.conveys_print
  obtain ⟨layers, denotesLayers, readsLayers⟩ :=
    conveys_list fun l (_ : l ∈ m.layers) => l.conveys_print
  refine ⟨.object [(some "name", name), (some "dtype", label), (some "inputs", inputs),
      (some "outputs", outputs), (some "tensors", tensors), (some "layers", layers)] .closed,
    denotes_object (.cons ⟨rfl, denotesName⟩ (.cons ⟨rfl, denotesLabel⟩ (.cons ⟨rfl, denotesInputs⟩
      (.cons ⟨rfl, denotesOutputs⟩ (.cons ⟨rfl, denotesTensors⟩
        (.cons ⟨rfl, denotesLayers⟩ .nil)))))), ?_⟩
  simp [read, Fields.add, Fields.finish, strings, Tree.readKey, Tree.fill, Tree.require,
    Tree.ended, bind, Except.bind, pure, Except.pure, readsName, readsLabel, readsInputs,
    readsOutputs, readsTensors, readsLayers]

def reprint (text : String) : Decoded String := toJson <$> ofJson text

theorem ofJson_toJson (m : Manifest) : ofJson m.toJson = .ok m := m.conveys_print.decode

/-- What is printed is read back as it was. So a text that is read at all keeps its manifest when it
is printed anew, and what it is printed as keeps its text. -/
theorem roundTrip_toJson :
    (∀ m : Manifest, ofJson m.toJson = .ok m) ∧
      ∀ text, reprint text >>= ofJson = ofJson text ∧ reprint text >>= reprint = reprint text := by
  refine ⟨ofJson_toJson, fun text => ?_⟩
  cases read : ofJson text with
  | error e => simp [reprint, read, Functor.map, Except.map, bind, Except.bind]
  | ok m => simp [reprint, read, ofJson_toJson, Functor.map, Except.map, bind, Except.bind]

end Manifest

end LiteModel
