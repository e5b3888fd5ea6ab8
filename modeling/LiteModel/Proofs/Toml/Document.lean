import LiteModel.Toml.Document
import LiteModel.Proofs.Toml.Quoting

/-! Documents of lines with a key and a value each. A line is taken in as a whole and adds its entry
to the top level, so a document of lines with different keys is read to their entries in order. -/
namespace LiteModel.Toml
open Lexical

namespace Reader

variable {α β : Type} {x : Reader α} {a : α} {text rest : List Char}

theorem bind_eq {f : α → Reader β} (h : x text = some (a, rest)) : (x >>= f) text = f a rest := by
  change (x text).bind (fun p => f p.1 p.2) = _
  rw [h]
  rfl

end Reader

theorem apart_of_isBare {c d : Char} (bare : isBare c = true) (other : isBare d = false) :
    c ≠ d := by
  rintro rfl
  cases bare.symm.trans other

theorem isBlank_of_isBare {c : Char} (bare : isBare c = true) : isBlank c = false := by
  have space : c ≠ ' ' := apart_of_isBare bare rfl
  have tab : c ≠ '\t' := apart_of_isBare bare rfl
  simp [isBlank, space, tab]

def IsBareKey (name : List Char) : Prop := name ≠ [] ∧ ∀ c ∈ name, isBare c = true

instance (name : List Char) : Decidable (IsBareKey name) :=
  decidable_of_iff (name ≠ [] ∧ name.all isBare = true) (by rw [IsBareKey, List.all_eq_true])

theorem simpleKey_bare {name : List Char} (bare : IsBareKey name) (rest : List Char) :
    simpleKey (name ++ ' ' :: rest) = some (name, ' ' :: rest) := by
  have taken : (name ++ ' ' :: rest).takeWhile isBare = name := by
    rw [List.takeWhile_append_of_pos bare.2]
    exact List.append_nil name
  have left : (name ++ ' ' :: rest).dropWhile isBare = ' ' :: rest := by
    rw [List.dropWhile_append_of_pos bare.2]
    rfl
  obtain ⟨c, name, rfl⟩ := List.exists_cons_of_ne_nil bare.1
  have first := bare.2 c List.mem_cons_self
  rw [simpleKey, taken, left]
  · exact fun _ same => apart_of_isBare first rfl (List.cons.inj same).1
  · exact fun _ same => apart_of_isBare first rfl (List.cons.inj same).1

theorem blanks_bare {name : List Char} (bare : IsBareKey name) (rest : List Char) :
    (name ++ rest).dropWhile isBlank = name ++ rest := by
  obtain ⟨c, name, rfl⟩ := List.exists_cons_of_ne_nil bare.1
  have first := isBlank_of_isBare (bare.2 c List.mem_cons_self)
  exact List.dropWhile_cons_of_neg (by simp [first])

theorem key_bare {name : String} (bare : IsBareKey name.toList) (rest : List Char) :
    key (name.toList ++ ' ' :: '=' :: rest) = some ([name], '=' :: rest) := by
  have ahead : blanks (name.toList ++ ' ' :: '=' :: rest) =
      some ((), name.toList ++ ' ' :: '=' :: rest) := by rw [blanks, blanks_bare bare]
  have behind : blanks (' ' :: '=' :: rest) = some ((), '=' :: rest) := rfl
  have last : Reader.optional (Reader.literal ['.']) ('=' :: rest) = some (none, '=' :: rest) := rfl
  change keyParts (depthLimit - 2 + 1) _ = _
  rw [keyParts, Reader.bind_eq ahead, Reader.bind_eq (simpleKey_bare bare _), Reader.bind_eq behind,
    Reader.bind_eq last, String.ofList_toList]
  rfl

structure Line where
  key : String
  text : List Char
  value : Value

namespace Line

def write (l : Line) : List Char := l.key.toList ++ [' ', '=', ' '] ++ l.text ++ ['\n']

def entry (l : Line) : String × Node := (l.key, .value l.value)

/-- The line stands for its key and its value. -/
structure Readable (l : Line) : Prop where
  bare : IsBareKey l.key.toList
  reads : ∀ rest, Document.value (depthLimit - 1) ((l.text ++ '\n' :: rest).dropWhile isBlank) =
    some (l.value, '\n' :: rest)

theorem write_append (l : Line) (rest : List Char) : l.write ++ rest =
    l.key.toList ++ ' ' :: '=' :: ' ' :: (l.text ++ '\n' :: rest) := by
  simp [write]

theorem Readable.write_append_ne {l : Line} (h : l.Readable) {c : Char}
    (other : isBare c = false) (rest text : List Char) : l.write ++ rest ≠ c :: text := by
  obtain ⟨first, name, same⟩ := List.exists_cons_of_ne_nil h.bare.1
  have bare : isBare first = true := h.bare.2 first (same ▸ List.mem_cons_self)
  rw [write_append, same]
  exact fun start => apart_of_isBare bare other (List.cons.inj start).1

theorem readable_text {key : String} (bare : IsBareKey key.toList) (s : String) :
    Readable ⟨key, Quoting.string s.toList, .text s⟩ where
  bare := bare
  reads rest := by
    obtain ⟨quote, after, begins, kind⟩ := head_string s.toList
    have taken : Document.value (depthLimit - 1)
        ((Quoting.string s.toList ++ '\n' :: rest).dropWhile isBlank) =
          (do return .text (String.ofList (← Lexical.string)) : Reader Value)
            (Quoting.string s.toList ++ '\n' :: rest) := by
      rw [begins]
      rcases kind with rfl | rfl <;> rfl
    rw [taken, Reader.bind_eq (string_quoted s.toList rest), String.ofList_toList]
    rfl

theorem readable_bool {key : String} (bare : IsBareKey key.toList) (b : Bool) :
    Readable ⟨key, if b then "true".toList else "false".toList, .bool b⟩ where
  bare := bare
  reads rest := by cases b <;> rfl

end Line

namespace Document

open Line

variable {l : Line} {rest : List Char}

theorem keyValue_line (h : l.Readable) :
    keyValue (value (depthLimit - 1)) (l.write ++ rest) =
      some (([l.key], l.value), '\n' :: rest) := by
  have sign : Reader.literal ['='] ('=' :: ' ' :: (l.text ++ '\n' :: rest)) =
      some ((), ' ' :: (l.text ++ '\n' :: rest)) := rfl
  have ahead : blanks (' ' :: (l.text ++ '\n' :: rest)) =
      some ((), (l.text ++ '\n' :: rest).dropWhile isBlank) := rfl
  rw [write_append, keyValue, Reader.bind_eq (key_bare h.bare _), Reader.bind_eq sign,
    Reader.bind_eq ahead, Reader.bind_eq (h.reads rest)]
  rfl

theorem insert?_fresh {entries : Entries} {key : String} (v : Value)
    (fresh : key ∉ entries.map (·.1)) :
    entries.insert? [key] v = some (entries ++ [(key, .value v)]) := by
  have missing : entries.lookup key = none := by
    rw [List.lookup_eq_none_iff]
    intro e member
    simpa using fun same => fresh (List.mem_map.2 ⟨e, member, same.symm⟩)
  simp [Entries.insert?, Entries.change?, missing]

theorem expression_line (h : l.Readable) {p : Progress} (fresh : l.key ∉ p.current.map (·.1)) :
    expression p (l.write ++ rest) =
      some ({ p with current := p.current ++ [l.entry] }, rest) := by
  have ended : restOfLine ('\n' :: rest) = some ((), rest) := rfl
  have added : p.add? [l.key] l.value = some { p with current := p.current ++ [l.entry] } := by
    rw [Progress.add?, insert?_fresh l.value fresh]
    rfl
  rw [expression]
  · rw [Reader.bind_eq (keyValue_line h)]
    dsimp only
    rw [Reader.bind_eq ended, added]
    rfl
  · exact h.write_append_ne rfl _
  · exact fun _ => h.write_append_ne rfl _ _
  · exact h.write_append_ne rfl _

theorem expressions_line (h : l.Readable) {p : Progress}
    (fresh : l.key ∉ p.current.map (·.1)) (fuel : Nat) :
    expressions (fuel + 1) p (l.write ++ rest) =
      expressions fuel { p with current := p.current ++ [l.entry] } rest := by
  have visible : (l.write ++ rest).dropWhile isBlank = l.write ++ rest := by
    rw [write_append, blanks_bare h.bare]
  rw [expressions, visible]
  split
  · next none => simp [write] at none
  · next same => exact absurd same (h.write_append_ne rfl _ _)
  · next same => exact absurd same (h.write_append_ne rfl _ _)
  · rw [expression_line h fresh]
    rfl

/-- What the lines before have added is in `p`, so the keys are distinct from those too. -/
theorem expressions_lines {lines : List Line} (readable : ∀ l ∈ lines, l.Readable) {p : Progress}
    (distinct : (p.current.map (·.1) ++ lines.map (·.key)).Nodup) {fuel : Nat}
    (enough : lines.length ≤ fuel) :
    expressions fuel p (lines.flatMap write) =
      some { p with current := p.current ++ lines.map entry } := by
  induction lines generalizing p fuel with
  | nil =>
    rw [List.flatMap_nil, List.map_nil, List.append_nil]
    cases fuel <;> rfl
  | cons l lines ih =>
    obtain ⟨now, later⟩ := List.forall_mem_cons.1 readable
    obtain ⟨fuel, rfl⟩ := Nat.exists_eq_add_one.2 (Nat.lt_of_lt_of_le (Nat.succ_pos _) enough)
    have fresh : l.key ∉ p.current.map (·.1) := fun before =>
      (List.nodup_append.1 distinct).2.2 _ before _ List.mem_cons_self rfl
    rw [List.map_cons, List.append_cons] at distinct
    rw [List.flatMap_cons, expressions_line now fresh, ih later _ (Nat.le_of_succ_le_succ enough)]
    · simp
    · simpa [entry] using distinct

theorem dropMark_lines {lines : List Line} (readable : ∀ l ∈ lines, l.Readable) :
    dropMark (lines.flatMap write) = lines.flatMap write := by
  cases lines with
  | nil => rfl
  | cons l lines =>
    rw [List.flatMap_cons, dropMark]
    exact (readable l List.mem_cons_self).write_append_ne rfl _

theorem length_le_length_write (lines : List Line) :
    lines.length ≤ (lines.flatMap write).length := by
  induction lines with
  | nil => exact Nat.le_refl _
  | cons l lines ih =>
    simp only [List.flatMap_cons, List.length_append, List.length_cons, write]
    omega

theorem parse?_lines {lines : List Line} (readable : ∀ l ∈ lines, l.Readable)
    (distinct : (lines.map (·.key)).Nodup) :
    parse? (lines.flatMap write) = some (lines.map entry) := by
  have read := expressions_lines readable (p := {}) distinct (length_le_length_write lines)
  rw [parse?, dropMark_lines readable, read]
  rfl

end Document

end LiteModel.Toml
