import LiteModel.Json.Decoding
import LiteModel.Proofs.Json.Document
import LiteModel.Proofs.Sequencing

/-! Values read back from printed texts. A text conveys a value to a reader when the tree that is
printed as this text is read as this value; what lists and maps convey comes from their parts. -/
namespace LiteModel.Json

open List (Forall₂)

variable {α : Type} {read : Tree → Decoded α}

/-- The reader makes this value of what is printed as this text. -/
def Conveys (read : Tree → Decoded α) (text : List Char) (a : α) : Prop :=
  ∃ t, Denotes text t ∧ read t = .ok a

theorem conveys_string (s : String) : Conveys Tree.readString (Text.string s) s :=
  ⟨_, denotes_string s, rfl⟩

theorem conveys_size (n : UInt64) : Conveys Tree.readSize (Text.digits n.toNat) n :=
  ⟨_, denotes_digits n, rfl⟩

theorem conveys_option (s : Option String) :
    Conveys Tree.readOptionalString
      (match s with
      | some s => Text.string s
      | none => Text.null) s := by
  cases s with
  | none => exact ⟨_, denotes_null, rfl⟩
  | some s => exact ⟨_, denotes_string s, rfl⟩

theorem exists_trees {texts : List (List Char)} {as : List α}
    (each : Forall₂ (Conveys read) texts as) :
    ∃ trees, Forall₂ Denotes texts trees ∧ trees.mapM read = .ok as := by
  induction each with
  | nil => exact ⟨[], .nil, rfl⟩
  | cons first _ ih =>
    obtain ⟨t, denotes, reads⟩ := first
    obtain ⟨trees, others, all⟩ := ih
    exact ⟨t :: trees, .cons denotes others,
      Sequencing.mapM_ok_iff.2 (.cons reads (Sequencing.mapM_ok_iff.1 all))⟩

theorem conveys_list {print : α → List Char} {as : List α}
    (each : ∀ a ∈ as, Conveys read (print a) a) :
    Conveys (Tree.readList read) (Text.array (as.map print)) as := by
  have pairs : Forall₂ (Conveys read) (as.map print) as :=
    List.forall₂_map_left_iff.2 (List.forall₂_same.2 each)
  obtain ⟨trees, denotes, all⟩ := exists_trees pairs
  exact ⟨_, denotes_array denotes, by rw [Tree.readList, all]; rfl⟩

theorem conveys_strings (items : List String) :
    Conveys (Tree.readList Tree.readString) (Text.strings items) items :=
  conveys_list fun s _ => conveys_string s

theorem conveys_pairs (entries : List (String × String)) : Conveys Tree.readPairs
    (Text.object (entries.map fun (k, v) => (k, Text.string v))) entries := by
  have denotes : Forall₂ DenotesMember (entries.map fun (k, v) => (k, Text.string v))
      (entries.map fun e => (some e.1, Tree.string (some e.2))) := by
    rw [List.forall₂_map_left_iff, List.forall₂_map_right_iff]
    exact List.forall₂_same.2 fun e _ => ⟨rfl, denotes_string e.2⟩
  refine ⟨_, denotes_object denotes, ?_⟩
  rw [Tree.readPairs]
  refine Sequencing.bind_ok_iff.2 ⟨entries, Sequencing.mapM_ok_iff.2 ?_, rfl⟩
  exact List.forall₂_map_left_iff.2 (List.forall₂_same.2 fun _ _ => rfl)

theorem Conveys.decode {text : List Char} {a : α} (h : Conveys read text a) :
    decode read (String.ofList text) = .ok a := by
  obtain ⟨t, denotes, reads⟩ := h
  rw [Json.decode, denotes.ofText]
  dsimp only
  rw [reads]
  rfl

end LiteModel.Json
