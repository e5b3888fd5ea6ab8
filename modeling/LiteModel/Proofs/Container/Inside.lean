import Mathlib
import LiteModel.Container.Encoding
import LiteModel.Container.Verification
import LiteModel.Proofs.Container.Readable

/-! Reading stays inside an accepted file. The accessors reach tables of eight kinds from the root;
`File.Reaches` says which positions they reach, and `TableKind.Safe` what is wanted there: the walk
has gone through the table, reading it gives a value, and its vtable, its numbers, the targets of
its references, the ranges of its lists and texts all lie in the file. -/
namespace LiteModel.Container

namespace File

/-- The tables at positions that accessors come to, from the root on. -/
inductive Reaches (file : File) : TableKind → Nat → Prop where
  | root {p : Nat} : file.target? 0 = some p → Reaches file .model p
  | single {kind inner : TableKind} {p slot q r : Nat} {t : Table} : Reaches file kind p →
      file.table? p = some t → (slot, .table inner) ∈ file.fieldsOf kind t →
      file.place? t slot = some (some q) → file.target? q = some r → Reaches file inner r
  | member {kind inner : TableKind} {p slot q v n i r : Nat} {t : Table} : Reaches file kind p →
      file.table? p = some t → (slot, .tables inner) ∈ file.fieldsOf kind t →
      file.place? t slot = some (some q) → file.target? q = some v → file.word? 4 v = some n →
      i < n → file.target? (v + 4 + 4 * i) = some r → Reaches file inner r

def Leads (file : File) (position : Nat) (P : Nat → Prop) : Prop :=
  position + 4 ≤ file.size ∧ ∃ q, file.target? position = some q ∧ q + 4 ≤ file.size ∧ P q

end File

/-- All that reading a field of this kind follows lies in the file: a text is text, and every table
that is led to has been walked through. -/
def FieldKind.Inside (file : File) : FieldKind → Nat → Prop
  | scalar width, q => q + width ≤ file.size
  | vector width, q => file.Leads q fun v =>
      ∃ n, file.word? 4 v = some n ∧ v + 4 + n * width ≤ file.size
  | text, q => file.Leads q fun v =>
      ∃ n s, file.word? 4 v = some n ∧ v + 4 + n ≤ file.size ∧ file.text? (v + 4) n = some s
  | table kind, q => file.Leads q fun r => (kind.check file r).Passes ()
  | tables kind, q => file.Leads q fun v =>
      ∃ n, file.word? 4 v = some n ∧ v + 4 + n * 4 ≤ file.size ∧
        ∀ i < n, file.Leads (v + 4 + 4 * i) fun r => (kind.check file r).Passes ()

/-- The vtable of a table lies in the file, and so does what its fields lead to. -/
structure File.Contains (file : File) (kind : TableKind) (position : Nat) (t : File.Table) :
    Prop where
  found : file.table? position = some t
  start : position + 4 ≤ file.size
  vtable : t.vtable + 2 ≤ file.size ∧ t.vtable + t.vtableSize ≤ file.size
  entries : ∀ f ∈ file.fieldsOf kind t, f.1 < t.vtableSize → t.vtable + f.1 + 2 ≤ file.size
  places : ∀ f ∈ file.fieldsOf kind t, ∃ found, file.place? t f.1 = some found
  contents : ∀ f ∈ file.fieldsOf kind t, ∀ q, file.place? t f.1 = some (some q) →
    f.2.Inside file q

structure TableKind.Safe (file : File) (kind : TableKind) (position : Nat) : Prop where
  walked : (kind.check file position).Passes ()
  readable : kind.Readable file position
  contained : ∃ t, file.Contains kind position t

variable {file : File}

theorem FieldKind.inside_of_passes {kind : FieldKind} {q : Nat}
    (h : (kind.check file q).Passes ()) : kind.Inside file q := by
  cases kind with
  | scalar width => exact Check.Passes.scalar h
  | vector width =>
    obtain ⟨inside, v, target, list⟩ := Check.Passes.reference h
    obtain ⟨n, count, bound⟩ := list.words
    exact ⟨inside, v, target, by omega, n, count, bound⟩
  | text =>
    obtain ⟨inside, v, target, text⟩ := Check.Passes.reference h
    obtain ⟨n, s, count, bound, valid⟩ := text.text
    exact ⟨inside, v, target, by omega, n, s, count, bound, valid⟩
  | table kind =>
    obtain ⟨inside, r, target, table⟩ := Check.Passes.reference h
    exact ⟨inside, r, target, TableKind.start_le _ table, table⟩
  | tables kind =>
    obtain ⟨inside, v, target, list⟩ := Check.Passes.reference h
    obtain ⟨n, count, bound, members⟩ := list.references
    refine ⟨inside, v, target, by omega, n, count, bound, fun i hi => ?_⟩
    obtain ⟨inside, r, target, table⟩ := (members i hi).reference
    exact ⟨inside, r, target, TableKind.start_le _ table, table⟩

theorem TableKind.contains_of_passes {kind : TableKind} {p : Nat}
    (h : (kind.check file p).Passes ()) : ∃ t, file.Contains kind p t := by
  obtain ⟨t, first, visits⟩ := TableKind.visits_fields _ h
  obtain ⟨found, -, start, vtable⟩ := first.table
  refine ⟨t.view, found, start, vtable, fun f hf => ?_, fun f hf => ?_, fun f hf q hq => ?_⟩
  · obtain ⟨_, place, _⟩ := visits f hf
    exact place.place.1
  · obtain ⟨o, place, _⟩ := visits f hf
    exact ⟨o, place.place.2⟩
  · obtain ⟨o, place, content⟩ := visits f hf
    have same : o = some q := Option.some.inj (place.place.2.symm.trans hq)
    exact FieldKind.inside_of_passes (content q same)

theorem TableKind.safe_of_passes {kind : TableKind} {p : Nat} (h : (kind.check file p).Passes ()) :
    kind.Safe file p :=
  ⟨h, readable_of_passes h, contains_of_passes h⟩

/-- What accessors reach, the walk has gone through. -/
theorem File.Reaches.passes {kind : TableKind} {p : Nat} (h : file.Reaches kind p)
    (root : (Check.reference file (Check.model file) 0).Passes ()) :
    (kind.check file p).Passes () := by
  induction h with
  | root leads =>
    obtain ⟨_, r, target, table⟩ := root.reference
    rwa [Option.some.inj (leads.symm.trans target)]
  | single _ found field place leads ih =>
    obtain ⟨t, inFile⟩ := TableKind.contains_of_passes ih
    cases Option.some.inj (found.symm.trans inFile.found)
    obtain ⟨_, r, target, _, table⟩ := inFile.contents _ field _ place
    rwa [Option.some.inj (leads.symm.trans target)]
  | member _ found field place list count below leads ih =>
    obtain ⟨t, inFile⟩ := TableKind.contains_of_passes ih
    cases Option.some.inj (found.symm.trans inFile.found)
    obtain ⟨_, v, start, _, n, counted, _, members⟩ := inFile.contents _ field _ place
    cases Option.some.inj (list.symm.trans start)
    cases Option.some.inj (count.symm.trans counted)
    obtain ⟨_, r, target, _, table⟩ := members _ below
    rwa [Option.some.inj (leads.symm.trans target)]

theorem File.passes_of_usage {used : Usage} (h : file.usage = .ok used) :
    (Check.reference file (Check.model file) 0).Passes () := by
  unfold File.usage at h
  cases run : (Check.reference file (Check.model file) 0).run {} with
  | error fault => rw [run] at h; cases h
  | ok r => exact ⟨{}, r.2, run⟩

/-- Whatever the walk accepts is read without leaving the file: the whole content is found, and at
every table that accessors reach the walk has been and all that they follow lies in the file. -/
theorem File.accepted_reads_inside {file : File} {used : Usage} (h : file.usage = .ok used) :
    (∃ m, file.content? = some m ∧ file.root = .ok m) ∧
      file.Leads 0 (file.Reaches .model) ∧
      ∀ kind p, file.Reaches kind p → kind.Safe file p := by
  have walked := File.passes_of_usage h
  obtain ⟨start, p, leads, model⟩ := walked.reference
  obtain ⟨m, hm⟩ := TableKind.readable_model model
  have content : file.content? = some m := by simp [File.content?, leads, hm]
  have inside : p + 4 ≤ file.size := TableKind.start_le .model model
  refine ⟨⟨m, content, ?_⟩, ⟨start, p, leads, inside, .root leads⟩, fun kind p reach =>
    TableKind.safe_of_passes (reach.passes walked)⟩
  simp [File.root, h, content, bind, Except.bind, pure, Except.pure]

def oneSoftmax : Model where
  description := some "é"
  subgraphs := some [{ operators := some [{ inputs := some [-1], options := .softmax 0x40000000 }] }]

set_option maxRecDepth 4000 in
theorem File.accepted_reads_inside_oneSoftmax :
    File.usage oneSoftmax.encode.toArray = .ok ⟨163, 4⟩ ∧
      ∃ m, File.content? oneSoftmax.encode.toArray = some m ∧
        File.root oneSoftmax.encode.toArray = .ok m := by
  have accepted : File.usage oneSoftmax.encode.toArray = .ok ⟨163, 4⟩ := by cbv
  exact ⟨accepted, (File.accepted_reads_inside accepted).1⟩

end LiteModel.Container