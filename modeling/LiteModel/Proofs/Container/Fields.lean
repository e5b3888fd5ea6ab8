import LiteModel.Proofs.Container.Walk

/-! The fields of the eight kinds of tables as accessors read them, and that the walk through a
table visits each of them, as what the accessors take it for. -/
namespace LiteModel.Container

inductive TableKind where
  | model
  | operatorCode
  | subgraph
  | tensor
  | operator
  | buffer
  | fullyConnected
  | softmax
deriving DecidableEq, Repr

inductive FieldKind where
  | scalar (width : Nat)
  | vector (width : Nat)
  | text
  | table (kind : TableKind)
  | tables (kind : TableKind)
deriving DecidableEq, Repr

namespace TableKind

def check (file : File) : TableKind → Nat → Check Unit
  | model => Check.model file
  | operatorCode => Check.operatorCode file
  | subgraph => Check.subgraph file
  | tensor => Check.tensor file
  | operator => Check.operator file
  | buffer => Check.buffer file
  | fullyConnected => Check.fullyConnected file
  | softmax => Check.softmax file

def fields : TableKind → List (Nat × FieldKind)
  | model => [(Slot.Model.version, .scalar 4), (Slot.Model.operatorCodes, .tables operatorCode),
      (Slot.Model.subgraphs, .tables subgraph), (Slot.Model.description, .text),
      (Slot.Model.buffers, .tables buffer)]
  | operatorCode => [(Slot.OperatorCode.deprecatedCode, .scalar 1),
      (Slot.OperatorCode.version, .scalar 4), (Slot.OperatorCode.builtinCode, .scalar 4)]
  | subgraph => [(Slot.Subgraph.tensors, .tables tensor), (Slot.Subgraph.inputs, .vector 4),
      (Slot.Subgraph.outputs, .vector 4), (Slot.Subgraph.operators, .tables operator),
      (Slot.Subgraph.name, .text)]
  | tensor => [(Slot.Tensor.shape, .vector 4), (Slot.Tensor.typeCode, .scalar 1),
      (Slot.Tensor.buffer, .scalar 4), (Slot.Tensor.name, .text)]
  | operator => [(Slot.Operator.codeIndex, .scalar 4), (Slot.Operator.inputs, .vector 4),
      (Slot.Operator.outputs, .vector 4), (Slot.Operator.optionsTag, .scalar 1)]
  | buffer => [(Slot.Buffer.data, .vector 1)]
  | fullyConnected => [(Slot.FullyConnected.activation, .scalar 1)]
  | softmax => [(Slot.Softmax.beta, .scalar 4)]

def ofTag? (tag : Nat) : Option TableKind :=
  if tag = Options.fullyConnectedTag.toNat then some fullyConnected
  else if tag = Options.softmaxTag.toNat then some softmax
  else none

end TableKind

namespace File

def optionsField (file : File) (t : Table) : List (Nat × FieldKind) :=
  match (file.number? t Slot.Operator.optionsTag 1 0).bind TableKind.ofTag? with
  | some kind => [(Slot.Operator.options, .table kind)]
  | none => []

def fieldsOf (file : File) : TableKind → Table → List (Nat × FieldKind)
  | .operator, t => TableKind.operator.fields ++ file.optionsField t
  | kind, _ => kind.fields

end File

variable {file : File}

def FieldKind.check (file : File) : FieldKind → Nat → Check Unit
  | scalar width => Check.scalar file width
  | vector width => Check.reference file (Check.words file width)
  | text => Check.reference file (Check.text file)
  | table kind => Check.reference file (kind.check file)
  | tables kind => Check.reference file (Check.references file (kind.check file))

/-- The walk has looked for a field and gone into it if it is there. -/
def Check.Visits (file : File) (t : Check.Table) (f : Nat × FieldKind) : Prop :=
  ∃ found, (Check.place file t f.1).Passes found ∧
    ∀ q, found = some q → (f.2.check file q).Passes ()

namespace Check.Passes

variable {t : Check.Table} {slot : Nat} {a : Unit}

theorem visits_scalar {width : Nat}
    (h : (Check.field file t slot (Check.scalar file width)).Passes a) :
    Check.Visits file t (slot, .scalar width) := h.field

theorem visits_vector {width : Nat}
    (h : (Check.referred file t slot (Check.words file width)).Passes a) :
    Check.Visits file t (slot, .vector width) := h.field

theorem visits_text (h : (Check.referred file t slot (Check.text file)).Passes a) :
    Check.Visits file t (slot, .text) := h.field

theorem visits_tables (kind : TableKind)
    (h : (Check.referred file t slot (Check.references file (kind.check file))).Passes a) :
    Check.Visits file t (slot, .tables kind) := h.field

end Check.Passes

theorem File.number?_eq_some {t : File.Table} {slot width default : Nat} {found : Option Nat}
    {n : Nat} (here : file.place? t slot = some found)
    (read : (found.map (file.word? width)).getD (some default) = some n) :
    file.number? t slot width default = some n := by
  cases found with
  | none => simpa [File.number?, File.field?, here] using read
  | some q =>
    have read : file.word? width q = some n := read
    simp [File.number?, File.field?, here, read]

theorem Check.Passes.options {t : Check.Table} {a : Unit} (h : (Check.options file t).Passes a) :
    Check.Visits file t (Slot.Operator.optionsTag, .scalar 1) ∧
      ∀ f ∈ file.optionsField t.view, Check.Visits file t f := by
  obtain ⟨value, valuePlace, h⟩ := h.of_bind
  obtain ⟨tag, tagPlace, h⟩ := h.of_bind
  cases tag with
  | none =>
    refine ⟨⟨none, tagPlace, by simp⟩, ?_⟩
    have absent : file.number? t.view Slot.Operator.optionsTag 1 0 = some 0 :=
      File.number?_eq_some tagPlace.place.2 rfl
    simp [File.optionsField, absent, TableKind.ofTag?, Options.fullyConnectedTag,
      Options.softmaxTag]
  | some q =>
    cases value with
    | none => exact absurd h not_passes_refuse
    | some r =>
      obtain ⟨n, number, h⟩ := h.of_bind
      obtain ⟨_, scalar, _⟩ := number.of_bind
      refine ⟨⟨some q, tagPlace, by rintro _ ⟨⟩; exact scalar⟩, ?_⟩
      have present : file.number? t.view Slot.Operator.optionsTag 1 0 = some n :=
        File.number?_eq_some tagPlace.place.2 number.word.2
      intro f hf
      simp only [File.optionsField, present, Option.bind_some] at hf
      unfold TableKind.ofTag? at hf
      split at h
      · next known =>
        rw [if_pos known] at hf
        rw [List.mem_singleton.1 hf]
        exact ⟨some r, valuePlace, by rintro _ ⟨⟩; exact h⟩
      · next unknown =>
        split at h
        · next known =>
          rw [if_neg unknown, if_pos known] at hf
          rw [List.mem_singleton.1 hf]
          exact ⟨some r, valuePlace, by rintro _ ⟨⟩; exact h⟩
        · next unknown' =>
          rw [if_neg unknown, if_neg unknown'] at hf
          cases hf

/-- The walk through a table visits each field that the accessors read, as what they read it. -/
theorem TableKind.visits_fields (kind : TableKind) {p : Nat} (h : (kind.check file p).Passes ()) :
    ∃ t, (Check.table file p).Passes t ∧
      ∀ f ∈ file.fieldsOf kind t.view, Check.Visits file t f := by
  cases kind with
  | model =>
    obtain ⟨t, first, h⟩ := h.of_bind
    obtain ⟨_, version, h⟩ := h.of_bind
    obtain ⟨_, codes, h⟩ := h.of_bind
    obtain ⟨_, subgraphs, h⟩ := h.of_bind
    obtain ⟨_, description, buffers⟩ := h.of_bind
    refine ⟨t, first, ?_⟩
    simp only [File.fieldsOf, fields, List.forall_mem_cons]
    exact ⟨version.visits_scalar, codes.visits_tables .operatorCode,
      subgraphs.visits_tables .subgraph, description.visits_text, buffers.visits_tables .buffer,
      List.forall_mem_nil _⟩
  | operatorCode =>
    obtain ⟨t, first, h⟩ := h.of_bind
    obtain ⟨_, deprecated, h⟩ := h.of_bind
    obtain ⟨_, _, h⟩ := h.of_bind
    obtain ⟨_, version, builtin⟩ := h.of_bind
    refine ⟨t, first, ?_⟩
    simp only [File.fieldsOf, fields, List.forall_mem_cons]
    exact ⟨deprecated.visits_scalar, version.visits_scalar, builtin.visits_scalar,
      List.forall_mem_nil _⟩
  | subgraph =>
    obtain ⟨t, first, h⟩ := h.of_bind
    obtain ⟨_, tensors, h⟩ := h.of_bind
    obtain ⟨_, inputs, h⟩ := h.of_bind
    obtain ⟨_, outputs, h⟩ := h.of_bind
    obtain ⟨_, operators, name⟩ := h.of_bind
    refine ⟨t, first, ?_⟩
    simp only [File.fieldsOf, fields, List.forall_mem_cons]
    exact ⟨tensors.visits_tables .tensor, inputs.visits_vector, outputs.visits_vector,
      operators.visits_tables .operator, name.visits_text, List.forall_mem_nil _⟩
  | tensor =>
    obtain ⟨t, first, h⟩ := h.of_bind
    obtain ⟨_, shape, h⟩ := h.of_bind
    obtain ⟨_, typeCode, h⟩ := h.of_bind
    obtain ⟨_, buffer, name⟩ := h.of_bind
    refine ⟨t, first, ?_⟩
    simp only [File.fieldsOf, fields, List.forall_mem_cons]
    exact ⟨shape.visits_vector, typeCode.visits_scalar, buffer.visits_scalar, name.visits_text,
      List.forall_mem_nil _⟩
  | operator =>
    obtain ⟨t, first, h⟩ := h.of_bind
    obtain ⟨_, codeIndex, h⟩ := h.of_bind
    obtain ⟨_, inputs, h⟩ := h.of_bind
    obtain ⟨_, outputs, h⟩ := h.of_bind
    obtain ⟨tag, options⟩ := h.options
    refine ⟨t, first, ?_⟩
    simp only [fields, List.forall_mem_cons, List.forall_mem_append, File.fieldsOf]
    exact ⟨⟨codeIndex.visits_scalar, inputs.visits_vector, outputs.visits_vector, tag,
      List.forall_mem_nil _⟩, options⟩
  | buffer =>
    obtain ⟨t, first, data⟩ := h.of_bind
    refine ⟨t, first, ?_⟩
    simp only [File.fieldsOf, fields, List.forall_mem_cons]
    exact ⟨data.visits_vector, List.forall_mem_nil _⟩
  | fullyConnected =>
    obtain ⟨t, first, h⟩ := h.of_bind
    obtain ⟨_, activation, _⟩ := h.of_bind
    refine ⟨t, first, ?_⟩
    simp only [File.fieldsOf, fields, List.forall_mem_cons]
    exact ⟨activation.visits_scalar, List.forall_mem_nil _⟩
  | softmax =>
    obtain ⟨t, first, beta⟩ := h.of_bind
    refine ⟨t, first, ?_⟩
    simp only [File.fieldsOf, fields, List.forall_mem_cons]
    exact ⟨beta.visits_scalar, List.forall_mem_nil _⟩

theorem TableKind.start_le (kind : TableKind) {p : Nat} (h : (kind.check file p).Passes ()) :
    p + 4 ≤ file.size := by
  obtain ⟨_, first, _⟩ := TableKind.visits_fields _ h
  exact first.table.2.2.1

end LiteModel.Container
