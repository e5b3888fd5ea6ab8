import Mathlib.Data.List.Forall2
import LiteModel.Json.Document
import LiteModel.Proofs.Json.Token

/-! Documents of printed texts. The tokens of a value take a reading that waits for a value to one
that has it, so what is printed is read to the tree that it stands for. -/
namespace LiteModel.Json

namespace Reading

def WaitsForValue (r : Reading) : Prop := r.place = .value ∨ r.place = .firstItem

/-- These tokens finish this value wherever it may stand. -/
def Builds (tokens : List Token) (t : Tree) : Prop :=
  ∀ r rest, WaitsForValue r → run r (tokens ++ rest) = run (r.finish t) rest

variable {r next : Reading} {token : Token} {rest : List Token}

theorem run_step (step : r.step? token = some next) : run r (token :: rest) = run next rest := by
  rw [run, step]

theorem step?_value (waits : WaitsForValue r) (value : r.value? token = some next) :
    r.step? token = some next := by
  have opens : r.close? token = none := by cases token <;> first | rfl | cases value
  rcases waits with place | place
  · rw [step?, place, value]
  · rw [step?, place, opens, value]
    rfl

theorem builds_single {t : Tree} (value : ∀ r : Reading, r.value? token = some (r.finish t)) :
    Builds [token] t := fun r _ waits => run_step (step?_value waits (value r))

end Reading

/-- What a printer writes for a tree. -/
def Denotes (text : List Char) (t : Tree) : Prop :=
  ∃ tokens, Token.Spells text tokens ∧ Reading.Builds tokens t

theorem denotes_null : Denotes Text.null .null :=
  ⟨_, Token.spells_null, Reading.builds_single fun _ => rfl⟩

theorem denotes_string (s : String) : Denotes (Text.string s) (.string (some s)) :=
  ⟨_, Token.spells_string s, Reading.builds_single fun _ => rfl⟩

theorem denotes_digits (n : UInt64) :
    Denotes (Text.digits n.toNat) (.number (.natural n)) :=
  ⟨_, Token.spells_digits n, Reading.builds_single fun _ => rfl⟩

open Reading Token
open List (Forall₂)

theorem exists_items {texts : List (List Char)} {trees : List Tree}
    (each : Forall₂ Denotes texts trees) (nonempty : texts ≠ []) :
    ∃ tokens, Spells (Text.commaSeparated texts) tokens ∧
      ∀ before frames place rest, WaitsForValue ⟨.array before :: frames, place, none⟩ →
        run ⟨.array before :: frames, place, none⟩ (tokens ++ .closeArray :: rest) =
          run (finish ⟨frames, .after, none⟩ (.array (before.reverse ++ trees) .closed)) rest := by
  induction each with
  | nil => exact absurd rfl nonempty
  | @cons text t texts trees first later ih =>
    obtain ⟨tokens, spells, builds⟩ := first
    cases later with
    | nil =>
      refine ⟨tokens, spells, fun before frames place rest waits => ?_⟩
      rw [builds _ _ waits]
      apply run_step
      simp [step?, finish, close?]
    | cons second others =>
      obtain ⟨more, spellsMore, runMore⟩ := ih (List.cons_ne_nil _ _)
      refine ⟨tokens ++ .comma :: more, spells.append .comma spellsMore,
        fun before frames place rest waits => ?_⟩
      have comma : step? (finish ⟨.array before :: frames, place, none⟩ t) .comma =
          some ⟨.array (t :: before) :: frames, .value, none⟩ := rfl
      rw [List.append_assoc, List.cons_append, builds _ _ waits, run_step comma,
        runMore _ _ _ _ (.inl rfl), List.reverse_cons, List.append_assoc, List.singleton_append]

theorem denotes_array {texts : List (List Char)} {trees : List Tree}
    (each : Forall₂ Denotes texts trees) : Denotes (Text.array texts) (.array trees .closed) := by
  have opens : ∀ r, WaitsForValue r →
      r.step? .openArray = some ⟨.array [] :: r.frames, .firstItem, none⟩ :=
    fun r waits => step?_value waits rfl
  by_cases empty : texts = []
  · subst empty
    cases each
    refine ⟨_, (Spells.nil.mark .closeArray).mark .openArray, fun r rest waits => ?_⟩
    rw [List.cons_append, run_step (opens r waits)]
    exact run_step rfl
  · obtain ⟨tokens, spells, runs⟩ := exists_items each empty
    refine ⟨_, (spells.append .closeArray Spells.nil).mark .openArray, fun r rest waits => ?_⟩
    rw [List.cons_append, run_step (opens r waits), List.append_assoc]
    exact runs _ _ _ _ (.inr rfl)

def DenotesMember (m : String × List Char) (n : Option String × Tree) : Prop :=
  n.1 = some m.1 ∧ Denotes m.2 n.2

theorem exists_members {texts : List (String × List Char)} {trees : List (Option String × Tree)}
    (each : Forall₂ DenotesMember texts trees) (nonempty : texts ≠ []) :
    ∃ tokens,
      Spells (Text.commaSeparated (texts.map fun (k, v) => Text.string k ++ ':' :: v)) tokens ∧
      ∀ before frames place rest, place = .firstKey ∨ place = .key →
        run ⟨.object before none :: frames, place, none⟩ (tokens ++ .closeObject :: rest) =
          run (finish ⟨frames, .after, none⟩ (.object (before.reverse ++ trees) .closed)) rest := by
  induction each with
  | nil => exact absurd rfl nonempty
  | @cons m n texts trees first later ih =>
    obtain ⟨key, text⟩ := m
    obtain ⟨name, t⟩ := n
    obtain ⟨rfl, tokens, spells, builds⟩ := first
    have member : ∀ before frames place rest, place = .firstKey ∨ place = .key →
        run ⟨.object before none :: frames, place, none⟩
            (.string (some key) :: .colon :: (tokens ++ rest)) =
          run ⟨.object ((some key, t) :: before) none :: frames, .after, none⟩ rest := by
      intro before frames place rest waits
      have named : step? ⟨.object before none :: frames, place, none⟩ (.string (some key)) =
          some ⟨.object before (some (some key)) :: frames, .colon, none⟩ := by
        rcases waits with rfl | rfl <;> rfl
      have colon : step? ⟨.object before (some (some key)) :: frames, .colon, none⟩ .colon =
          some ⟨.object before (some (some key)) :: frames, .value, none⟩ := rfl
      rw [run_step named, run_step colon, builds _ _ (.inl rfl)]
      rfl
    have written := (spells_string key).append .colon spells
    cases later with
    | nil =>
      refine ⟨_, written, fun before frames place rest waits => ?_⟩
      rw [List.singleton_append, List.cons_append, List.cons_append, member _ _ _ _ waits]
      apply run_step
      simp [step?, close?]
    | cons second others =>
      obtain ⟨more, spellsMore, runMore⟩ := ih (List.cons_ne_nil _ _)
      refine ⟨_, written.append .comma spellsMore, fun before frames place rest waits => ?_⟩
      have comma : step? ⟨.object ((some key, t) :: before) none :: frames, .after, none⟩ .comma =
          some ⟨.object ((some key, t) :: before) none :: frames, .key, none⟩ := rfl
      rw [List.append_assoc, List.singleton_append, List.cons_append, List.cons_append,
        member _ _ _ _ waits, List.cons_append, run_step comma, runMore _ _ _ _ (.inr rfl),
        List.reverse_cons, List.append_assoc, List.singleton_append]

theorem denotes_object {texts : List (String × List Char)} {trees : List (Option String × Tree)}
    (each : Forall₂ DenotesMember texts trees) :
    Denotes (Text.object texts) (.object trees .closed) := by
  have opens : ∀ r, WaitsForValue r →
      r.step? .openObject = some ⟨.object [] none :: r.frames, .firstKey, none⟩ :=
    fun r waits => step?_value waits rfl
  by_cases empty : texts = []
  · subst empty
    cases each
    refine ⟨_, (Spells.nil.mark .closeObject).mark .openObject, fun r rest waits => ?_⟩
    rw [List.cons_append, run_step (opens r waits)]
    exact run_step rfl
  · obtain ⟨tokens, spells, runs⟩ := exists_members each empty
    refine ⟨_, (spells.append .closeObject Spells.nil).mark .openObject, fun r rest waits => ?_⟩
    rw [List.cons_append, run_step (opens r waits), List.append_assoc]
    exact runs _ _ _ _ (.inl rfl)

/-- What is printed for a tree is read to this tree, and to its end. -/
theorem Denotes.ofText {text : List Char} {t : Tree} (h : Denotes text t) :
    Document.ofText (String.ofList text) = ⟨t, true⟩ := by
  obtain ⟨tokens, spells, builds⟩ := h
  have read := builds {} [] (.inl rfl)
  rw [List.append_nil] at read
  rw [Document.ofText, spells.scan_eq, Document.ofTokens, read]
  rfl

end LiteModel.Json
