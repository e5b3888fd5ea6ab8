import LiteModel.Proofs.Container.Fields
import LiteModel.Proofs.Sequencing

/-! Reading what the walk has gone through gives an answer: numbers, lists and texts one by one,
then the tables, from those that lead nowhere up to the root. -/
namespace LiteModel.Container

/-- All accessors of a table of this kind give an answer at a position. -/
def TableKind.Readable (file : File) (kind : TableKind) (position : Nat) : Prop :=
  match kind with
  | model => ∃ m, file.model? position = some m
  | operatorCode => ∃ c, file.operatorCode? position = some c
  | subgraph => ∃ s, file.subgraph? position = some s
  | tensor => ∃ t, file.tensor? position = some t
  | operator => ∃ o, file.operator? position = some o
  | buffer => ∃ b, file.buffer? position = some b
  | fullyConnected => ∃ a, file.activation? position = some a
  | softmax => ∃ b, file.beta? position = some b

variable {file : File}

theorem File.word?_eq_some {width position : Nat} (h : position + width ≤ file.size) :
    ∃ n, file.word? width position = some n := by
  induction width generalizing position with
  | zero => exact ⟨0, rfl⟩
  | succ width ih =>
    obtain ⟨high, rest⟩ := ih (show position + 1 + width ≤ file.size by omega)
    have inside : position < file.size := by omega
    exact ⟨file[position].toNat + 256 * high, by simp [File.word?, File.byte?, inside, rest]⟩

theorem File.slice?_eq_some {position length : Nat} (h : position + length ≤ file.size) :
    ∃ bytes, file.slice? position length = some bytes := ⟨_, if_pos h⟩

theorem File.list?_eq_some {α : Type} {read : Nat → Option α} {width v n : Nat}
    (count : file.word? 4 v = some n)
    (members : ∀ i < n, ∃ a, read (v + 4 + width * i) = some a) :
    ∃ list, file.list? width read v = some list := by
  have each : ∀ i ∈ List.range n, ∃ a, read (v + 4 + width * i) = some a :=
    fun i hi => members i (List.mem_range.1 hi)
  obtain ⟨list, hlist⟩ := Sequencing.exists_mapM_some each
  exact ⟨list, by simp [File.list?, count, hlist]⟩

namespace Check.Passes

variable {v : Nat} {a : Unit}

theorem integers? (h : (Check.words file 4 v).Passes a) :
    ∃ values, file.integers? v = some values := by
  obtain ⟨n, count, bound⟩ := h.words
  refine File.list?_eq_some count fun i hi => ?_
  obtain ⟨k, hk⟩ := File.word?_eq_some (show v + 4 + 4 * i + 4 ≤ file.size by omega)
  exact ⟨(UInt32.ofNat k).toInt32, by simp [hk]⟩

theorem bytes? (h : (Check.words file 1 v).Passes a) : ∃ data, file.bytes? v = some data := by
  obtain ⟨n, count, bound⟩ := h.words
  obtain ⟨data, hdata⟩ := File.slice?_eq_some (show v + 4 + n ≤ file.size by omega)
  exact ⟨data, by simp [File.bytes?, count, hdata]⟩

theorem countedText? (h : (Check.text file v).Passes a) :
    ∃ s, file.countedText? v = some s := by
  obtain ⟨n, s, count, _, valid⟩ := h.text
  exact ⟨s, by simp [File.countedText?, count, valid]⟩

theorem tables? {α : Type} {read : Nat → Option α} {target : Nat → Check Unit}
    (h : (Check.references file target v).Passes a)
    (each : ∀ r, (target r).Passes () → ∃ x, read r = some x) :
    ∃ list, file.tables? read v = some list := by
  obtain ⟨n, count, _, members⟩ := h.references
  refine File.list?_eq_some count fun i hi => ?_
  obtain ⟨_, r, leads, table⟩ := (members i hi).reference
  obtain ⟨x, hx⟩ := each r table
  exact ⟨x, by simp [leads, hx]⟩

end Check.Passes

namespace Check.Visits

variable {t : Check.Table} {slot : Nat}

theorem field? {α : Type} {read : Nat → Option α} {kind : FieldKind}
    (h : Check.Visits file t (slot, kind))
    (content : ∀ q, (kind.check file q).Passes () → ∃ a, read q = some a) :
    ∃ o, file.field? t.view slot read = some o := by
  obtain ⟨found, place, passes⟩ := h
  have here : file.place? t.view slot = some found := place.place.2
  cases found with
  | none => exact ⟨none, by simp [File.field?, here]⟩
  | some q =>
    obtain ⟨a, ha⟩ := content q (passes q rfl)
    exact ⟨some a, by simp [File.field?, here, ha]⟩

theorem number? {width : Nat} (default : Nat) (h : Check.Visits file t (slot, .scalar width)) :
    ∃ n, file.number? t.view slot width default = some n := by
  obtain ⟨o, ho⟩ := h.field? fun q passes => File.word?_eq_some (Check.Passes.scalar passes)
  exact ⟨o.getD default, by simp [File.number?, ho]⟩

theorem referred? {α : Type} {read : Nat → Option α} {kind : FieldKind} {target : Nat → Check Unit}
    (same : kind.check file = Check.reference file target)
    (h : Check.Visits file t (slot, kind))
    (each : ∀ r, (target r).Passes () → ∃ a, read r = some a) :
    ∃ o, file.referred? t.view slot read = some o := by
  refine h.field? fun q passes => ?_
  rw [same] at passes
  obtain ⟨_, r, leads, target⟩ := passes.reference
  obtain ⟨a, ha⟩ := each r target
  exact ⟨a, by simp [leads, ha]⟩

theorem integers? (h : Check.Visits file t (slot, .vector 4)) :
    ∃ o, file.referred? t.view slot file.integers? = some o :=
  h.referred? rfl fun _ list => list.integers?

theorem bytes? (h : Check.Visits file t (slot, .vector 1)) :
    ∃ o, file.referred? t.view slot file.bytes? = some o :=
  h.referred? rfl fun _ list => list.bytes?

theorem countedText? (h : Check.Visits file t (slot, .text)) :
    ∃ o, file.referred? t.view slot file.countedText? = some o :=
  h.referred? rfl fun _ text => text.countedText?

theorem tables? {α : Type} {read : Nat → Option α} {kind : TableKind}
    (h : Check.Visits file t (slot, .tables kind))
    (each : ∀ r, (kind.check file r).Passes () → ∃ a, read r = some a) :
    ∃ o, file.referred? t.view slot (file.tables? read) = some o :=
  h.referred? rfl fun _ list => list.tables? each

theorem table? {α : Type} {read : Nat → Option α} {kind : TableKind}
    (h : Check.Visits file t (slot, .table kind))
    (each : ∀ r, (kind.check file r).Passes () → ∃ a, read r = some a) :
    ∃ o, file.referred? t.view slot read = some o :=
  h.referred? rfl each

end Check.Visits

theorem File.word?_lt {width position n : Nat} (h : file.word? width position = some n) :
    n < Word.capacity width := by
  induction width generalizing position n with
  | zero =>
    have zero : 0 = n := Option.some.inj h
    simp [← zero, Word.capacity]
  | succ width ih =>
    obtain ⟨low, hlow, h⟩ := Option.bind_eq_some_iff.1 h
    obtain ⟨high, hhigh, h⟩ := Option.bind_eq_some_iff.1 h
    obtain ⟨b, -, rfl⟩ := Option.map_eq_some_iff.1 hlow
    have sum : b.toNat + 256 * high = n := Option.some.inj h
    have := ih hhigh
    have := b.toNat_lt
    simp only [Word.capacity]
    omega

theorem File.number?_lt {t : File.Table} {slot width default n : Nat}
    (h : file.number? t slot width default = some n) (small : default < Word.capacity width) :
    n < Word.capacity width := by
  obtain ⟨o, ho, h⟩ := Option.bind_eq_some_iff.1 h
  obtain ⟨found, -, ho⟩ := Option.bind_eq_some_iff.1 ho
  have value : o.getD default = n := Option.some.inj h
  rw [← value]
  cases found with
  | none => rwa [← Option.some.inj ho]
  | some q =>
    obtain ⟨k, hk, rfl⟩ := Option.map_eq_some_iff.1 ho
    exact File.word?_lt hk

theorem File.list?_length_lt {α : Type} {read : Nat → Option α} {width v : Nat} {items : List α}
    (h : file.list? width read v = some items) : items.length < Word.capacity 4 := by
  obtain ⟨count, found, h⟩ := Option.bind_eq_some_iff.1 h
  have length := (Sequencing.mapM_some_iff.1 h).length_eq
  rw [List.length_range] at length
  rw [← length]
  exact File.word?_lt found

theorem File.tables_length_lt {α : Type} {read : Nat → Option α} {t : File.Table} {slot : Nat}
    {o : Option (List α)} (h : file.referred? t slot (file.tables? read) = some o) :
    (o.getD []).length < Word.capacity 4 := by
  obtain ⟨found, -, h⟩ := Option.bind_eq_some_iff.1 h
  cases found with
  | none =>
    cases h
    exact Nat.zero_lt_succ _
  | some q =>
    obtain ⟨items, hitems, rfl⟩ := Option.map_eq_some_iff.1 h
    obtain ⟨r, -, hitems⟩ := Option.bind_eq_some_iff.1 hitems
    exact File.list?_length_lt hitems

theorem File.exists_of_mem_tables {α : Type} {read : Nat → Option α} {t : File.Table} {slot : Nat}
    {o : Option (List α)} (h : file.referred? t slot (file.tables? read) = some o) {a : α}
    (member : a ∈ o.getD []) : ∃ p, read p = some a := by
  obtain ⟨found, -, h⟩ := Option.bind_eq_some_iff.1 h
  cases found with
  | none =>
    cases h
    cases member
  | some q =>
    obtain ⟨items, hitems, rfl⟩ := Option.map_eq_some_iff.1 h
    obtain ⟨r, -, hitems⟩ := Option.bind_eq_some_iff.1 hitems
    obtain ⟨count, -, hitems⟩ := Option.bind_eq_some_iff.1 hitems
    obtain ⟨i, place, rfl⟩ := List.mem_iff_getElem.1 member
    have pairs := Sequencing.mapM_some_iff.1 hitems
    have entry := pairs.get (pairs.length_eq ▸ place) place
    obtain ⟨p, -, there⟩ := Option.bind_eq_some_iff.1 entry
    exact ⟨p, there⟩

/-- The lists that numbers of a content point into can be numbered in a word. -/
structure Model.Counted (m : Model) : Prop where
  codes : (m.operatorCodes.getD []).length < Word.capacity 4
  buffers : (m.buffers.getD []).length < Word.capacity 4
  tensors : ∀ s ∈ m.subgraphs.getD [], (s.tensors.getD []).length < Word.capacity 4

theorem File.counted_of_content? {m : Model} (h : file.content? = some m) : m.Counted := by
  obtain ⟨p, -, h⟩ := Option.bind_eq_some_iff.1 h
  obtain ⟨t, -, h⟩ := Option.bind_eq_some_iff.1 h
  obtain ⟨version, -, h⟩ := Option.bind_eq_some_iff.1 h
  obtain ⟨codes, hcodes, h⟩ := Option.bind_eq_some_iff.1 h
  obtain ⟨subgraphs, hsubgraphs, h⟩ := Option.bind_eq_some_iff.1 h
  obtain ⟨description, -, h⟩ := Option.bind_eq_some_iff.1 h
  obtain ⟨buffers, hbuffers, h⟩ := Option.bind_eq_some_iff.1 h
  cases h
  refine ⟨File.tables_length_lt hcodes, File.tables_length_lt hbuffers, fun s member => ?_⟩
  obtain ⟨q, h⟩ := File.exists_of_mem_tables hsubgraphs member
  obtain ⟨t, -, h⟩ := Option.bind_eq_some_iff.1 h
  obtain ⟨tensors, htensors, h⟩ := Option.bind_eq_some_iff.1 h
  obtain ⟨inputs, -, h⟩ := Option.bind_eq_some_iff.1 h
  obtain ⟨outputs, -, h⟩ := Option.bind_eq_some_iff.1 h
  obtain ⟨operators, -, h⟩ := Option.bind_eq_some_iff.1 h
  obtain ⟨name, -, h⟩ := Option.bind_eq_some_iff.1 h
  cases h
  exact File.tables_length_lt htensors

namespace TableKind

variable {p : Nat}

theorem readable_buffer (h : (buffer.check file p).Passes ()) : buffer.Readable file p := by
  obtain ⟨t, first, visits⟩ := visits_fields buffer h
  simp only [File.fieldsOf, fields, List.forall_mem_cons] at visits
  obtain ⟨data, -⟩ := visits
  obtain ⟨o, ho⟩ := data.bytes?
  simp [Readable, File.buffer?, first.table.1, ho]

theorem readable_operatorCode (h : (operatorCode.check file p).Passes ()) :
    operatorCode.Readable file p := by
  obtain ⟨t, first, visits⟩ := visits_fields operatorCode h
  simp only [File.fieldsOf, fields, List.forall_mem_cons] at visits
  obtain ⟨deprecated, version, builtin, -⟩ := visits
  obtain ⟨d, hd⟩ := deprecated.number? 0
  obtain ⟨v, hv⟩ := version.number? 1
  obtain ⟨b, hb⟩ := builtin.number? 0
  simp [Readable, File.operatorCode?, first.table.1, hd, hv, hb]

theorem readable_tensor (h : (tensor.check file p).Passes ()) : tensor.Readable file p := by
  obtain ⟨t, first, visits⟩ := visits_fields tensor h
  simp only [File.fieldsOf, fields, List.forall_mem_cons] at visits
  obtain ⟨shape, typeCode, buffer, name, -⟩ := visits
  obtain ⟨s, hs⟩ := shape.integers?
  obtain ⟨c, hc⟩ := typeCode.number? 0
  obtain ⟨b, hb⟩ := buffer.number? 0
  obtain ⟨n, hn⟩ := name.countedText?
  simp [Readable, File.tensor?, first.table.1, hs, hc, hb, hn]

theorem readable_fullyConnected (h : (fullyConnected.check file p).Passes ()) :
    fullyConnected.Readable file p := by
  obtain ⟨t, first, visits⟩ := visits_fields fullyConnected h
  simp only [File.fieldsOf, fields, List.forall_mem_cons] at visits
  obtain ⟨activation, -⟩ := visits
  obtain ⟨a, ha⟩ := activation.number? 0
  simp [Readable, File.activation?, first.table.1, ha]

theorem readable_softmax (h : (softmax.check file p).Passes ()) : softmax.Readable file p := by
  obtain ⟨t, first, visits⟩ := visits_fields softmax h
  simp only [File.fieldsOf, fields, List.forall_mem_cons] at visits
  obtain ⟨beta, -⟩ := visits
  obtain ⟨b, hb⟩ := beta.number? 0
  simp [Readable, File.beta?, first.table.1, hb]

/-- The accessors compare the tag as a byte, the walk as a number; it is one byte either way. -/
theorem readable_options {t : Check.Table}
    (tag : Check.Visits file t (Slot.Operator.optionsTag, .scalar 1))
    (options : ∀ f ∈ file.optionsField t.view, Check.Visits file t f) :
    ∃ o, file.options? t.view = some o := by
  obtain ⟨n, hn⟩ := tag.number? 0
  have small : n < 256 := File.number?_lt hn (by decide)
  have asByte : ∀ b : UInt8, UInt8.ofNat n = b ↔ n = b.toNat := fun b => by
    rw [← UInt8.toNat_inj, UInt8.toNat_ofNat', Nat.mod_eq_of_lt small]
  have kinds : file.optionsField t.view =
      ((ofTag? n).map fun kind => (Slot.Operator.options, FieldKind.table kind)).toList := by
    rw [File.optionsField, hn, Option.bind_some]
    cases ofTag? n <;> rfl
  unfold ofTag? at kinds
  by_cases full : n = Options.fullyConnectedTag.toNat
  · rw [if_pos full] at kinds
    rw [kinds, Option.map_some, Option.toList_some, List.forall_mem_singleton] at options
    obtain ⟨o, ho⟩ := options.table? fun _ => readable_fullyConnected
    simp [File.options?, hn, (asByte _).2 full, ho]
  · by_cases soft : n = Options.softmaxTag.toNat
    · rw [if_neg full, if_pos soft] at kinds
      rw [kinds, Option.map_some, Option.toList_some, List.forall_mem_singleton] at options
      obtain ⟨o, ho⟩ := options.table? fun _ => readable_softmax
      have apart : ¬ Options.softmaxTag = Options.fullyConnectedTag := by decide
      simp [File.options?, hn, (asByte _).2 soft, apart, ho]
    · simp [File.options?, hn, mt (asByte _).1 full, mt (asByte _).1 soft]

theorem readable_operator (h : (operator.check file p).Passes ()) : operator.Readable file p := by
  obtain ⟨t, first, visits⟩ := visits_fields operator h
  simp only [File.fieldsOf, fields, List.cons_append, List.nil_append,
    List.forall_mem_cons] at visits
  obtain ⟨codeIndex, inputs, outputs, tag, options⟩ := visits
  obtain ⟨c, hc⟩ := codeIndex.number? 0
  obtain ⟨i, hi⟩ := inputs.integers?
  obtain ⟨o, ho⟩ := outputs.integers?
  obtain ⟨k, hk⟩ := readable_options tag options
  simp [Readable, File.operator?, first.table.1, hc, hi, ho, hk]

theorem readable_subgraph (h : (subgraph.check file p).Passes ()) : subgraph.Readable file p := by
  obtain ⟨t, first, visits⟩ := visits_fields subgraph h
  simp only [File.fieldsOf, fields, List.forall_mem_cons] at visits
  obtain ⟨tensors, inputs, outputs, operators, name, -⟩ := visits
  obtain ⟨ts, hts⟩ := tensors.tables? fun _ => readable_tensor
  obtain ⟨i, hi⟩ := inputs.integers?
  obtain ⟨o, ho⟩ := outputs.integers?
  obtain ⟨os, hos⟩ := operators.tables? fun _ => readable_operator
  obtain ⟨n, hn⟩ := name.countedText?
  simp [Readable, File.subgraph?, first.table.1, hts, hi, ho, hos, hn]

theorem readable_model (h : (model.check file p).Passes ()) : model.Readable file p := by
  obtain ⟨t, first, visits⟩ := visits_fields model h
  simp only [File.fieldsOf, fields, List.forall_mem_cons] at visits
  obtain ⟨version, codes, subgraphs, description, buffers, -⟩ := visits
  obtain ⟨v, hv⟩ := version.number? 0
  obtain ⟨cs, hcs⟩ := codes.tables? fun _ => readable_operatorCode
  obtain ⟨ss, hss⟩ := subgraphs.tables? fun _ => readable_subgraph
  obtain ⟨d, hd⟩ := description.countedText?
  obtain ⟨bs, hbs⟩ := buffers.tables? fun _ => readable_buffer
  simp [Readable, File.model?, first.table.1, hv, hcs, hss, hd, hbs]

theorem readable_of_passes {kind : TableKind} (h : (kind.check file p).Passes ()) :
    kind.Readable file p := by
  cases kind with
  | model => exact readable_model h
  | operatorCode => exact readable_operatorCode h
  | subgraph => exact readable_subgraph h
  | tensor => exact readable_tensor h
  | operator => exact readable_operator h
  | buffer => exact readable_buffer h
  | fullyConnected => exact readable_fullyConnected h
  | softmax => exact readable_softmax h

end TableKind

end LiteModel.Container
