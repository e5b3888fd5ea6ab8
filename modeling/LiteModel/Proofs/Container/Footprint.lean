import Mathlib.Algebra.GroupWithZero.Nat
import LiteModel.Proofs.Container.RoundTrip

/-! How many tables a walk goes through: one for each entry of the content, and one more for an
operator whose options have a table. -/
namespace LiteModel.Container

def OperatorEntry.tableCount (o : OperatorEntry) : Nat :=
  match o.options with
  | .other _ => 1
  | _ => 2

def Subgraph.tableCount (s : Subgraph) : Nat :=
  1 + (s.tensors.getD []).length + ((s.operators.getD []).map OperatorEntry.tableCount).sum

def Model.tableCount (m : Model) : Nat :=
  1 + (m.operatorCodes.getD []).length + ((m.subgraphs.getD []).map Subgraph.tableCount).sum +
    (m.buffers.getD []).length

namespace Usage

theorem sum_of_add {f : Usage → Nat} (zero : f 0 = 0) (add : ∀ u v, f (u + v) = f u + f v)
    (us : List Usage) : f us.sum = (us.map f).sum := by
  induction us with
  | nil => exact zero
  | cons u rest ih => rw [List.sum_cons, add, ih, List.map_cons, List.sum_cons]

theorem tables_sum (us : List Usage) : us.sum.tables = (us.map (·.tables)).sum :=
  sum_of_add rfl tables_add us

theorem tables_table (contents : List (Option Usage)) :
    (table contents).tables = 1 + (contents.map fun c => (c.getD 0).tables).sum := by
  have free : ∀ fields n c, (field fields n c).tables = (c.getD 0).tables := by
    intro fields n c
    unfold field
    split <;> simp
  have same : (contents.mapIdx (field (extent contents))).map (·.tables) =
      contents.map fun c => (c.getD 0).tables := by
    apply List.ext_getElem
    · simp
    · intro n _ _
      simp [free]
  rw [table, tables_add, tables_sum, same]

@[simp] theorem tables_number (width value default : Nat) :
    ((number width value default).getD 0).tables = 0 := by
  unfold number
  split <;> rfl

@[simp] theorem tables_integers (o : Option (List Int32)) :
    ((reference Form.integers o).getD 0).tables = 0 := by
  cases o <;> rfl

@[simp] theorem tables_data (o : Option (List UInt8)) :
    ((reference Form.bytes o).getD 0).tables = 0 := by
  cases o <;> rfl

@[simp] theorem tables_text (o : Option String) : ((reference Form.text o).getD 0).tables = 0 := by
  cases o <;> rfl

@[simp] theorem tables_list {α : Type} (F : Form α) (o : Option (List α)) :
    ((reference F.tables o).getD 0).tables =
      ((o.getD []).map fun a => (F.usage a).tables).sum := by
  cases o with
  | none => rfl
  | some items =>
    simp only [reference, Form.tables, Option.map_some, Option.getD_some, tables_add, tables_bytes,
      tables_sum, List.map_map, Function.comp_def, Nat.zero_add]

end Usage

namespace Form

theorem tables_buffer (b : Buffer) : (buffer.usage b).tables = 1 := by
  simp [buffer, Usage.tables_table]

theorem tables_operatorCode (c : OperatorCode) : (operatorCode.usage c).tables = 1 := by
  simp [operatorCode, Usage.tables_table]

theorem tables_tensor (e : TensorEntry) : (tensor.usage e).tables = 1 := by
  simp [tensor, Usage.tables_table]

theorem tables_operator (e : OperatorEntry) : (operator.usage e.stored).tables = e.tableCount := by
  have tag : ∀ o : Option Usage, ((o.map fun _ => Usage.bytes 1).getD 0).tables = 0 := by
    intro o
    cases o <;> rfl
  have options : 1 + ((optionsUsage e.options.stored).getD 0).tables = e.tableCount := by
    unfold OperatorEntry.tableCount
    cases e.options <;>
      simp [Options.stored, optionsUsage, activation, beta, Usage.tables_table]
  simpa [operator, Usage.tables_table, OperatorEntry.stored, tag] using options

theorem tables_subgraph (s : Subgraph) : (subgraph.usage s.stored).tables = s.tableCount := by
  have operators : ((s.stored.operators.getD []).map fun e => (operator.usage e).tables).sum =
      ((s.operators.getD []).map OperatorEntry.tableCount).sum := by
    cases ho : s.operators with
    | none => simp [Subgraph.stored, ho]
    | some items => simp [Subgraph.stored, ho, Function.comp_def, tables_operator]
  have tensors : s.stored.tensors = s.tensors := rfl
  simp [subgraph, Usage.tables_table, operators, tensors, tables_tensor, Subgraph.tableCount]
  omega

end Form

/-- The walk counts the tables of the content. -/
theorem Model.tables_footprint (m : Model) : m.footprint.tables = m.tableCount := by
  have subgraphs : ((m.stored.subgraphs.getD []).map fun s => (Form.subgraph.usage s).tables).sum =
      ((m.subgraphs.getD []).map Subgraph.tableCount).sum := by
    cases hs : m.subgraphs with
    | none => simp [Model.stored, hs]
    | some items => simp [Model.stored, hs, Function.comp_def, Form.tables_subgraph]
  have codes : m.stored.operatorCodes = m.operatorCodes := rfl
  have buffers : m.stored.buffers = m.buffers := rfl
  simp [Model.footprint, Form.model, Usage.tables_table, subgraphs, codes, buffers,
    Form.tables_operatorCode, Form.tables_buffer, Model.tableCount]
  omega

end LiteModel.Container
