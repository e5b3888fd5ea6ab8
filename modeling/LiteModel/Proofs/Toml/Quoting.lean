import Mathlib.Data.List.Infix
import LiteModel.Toml.Lexical
import LiteModel.Toml.Quoting

/-! Strings read back. Between double quotes an escape stands for the character that it was written
for; between three quotes of a kind, those that belong to the text are at most two in a row, and at
its end they are told from the closing ones by their number. -/
namespace LiteModel.Toml
open Lexical Quoting

theorem isPlain_of_not_isControl {c : Char} (plain : isControl c = false) (newline : c ≠ '\n') :
    isPlain c = true := by
  by_cases tab : c = '\t'
  · subst tab
    rfl
  · simp [isControl, isPlain, tab, newline] at plain ⊢
    omega

theorem hexValue?_hexDigit : ∀ n < 16, hexValue? (hexDigit n) = some n := by decide

theorem codePoint?_hexDigit {c : Char} (short : c.toNat < 256) :
    codePoint? ['0', '0', hexDigit (c.toNat / 16), hexDigit (c.toNat % 16)] = some c := by
  have zero : hexValue? '0' = some 0 := rfl
  have high := hexValue?_hexDigit (c.toNat / 16) (by omega)
  have low := hexValue?_hexDigit (c.toNat % 16) (by omega)
  have value : 16 * (c.toNat / 16) + c.toNat % 16 = c.toNat := by omega
  simp [codePoint?, zero, high, low, value]
  omega

/-- A character is written as a backslash and a letter, as a backslash and its code point, or as
itself. -/
theorem escape?_cases (c : Char) :
    (∃ letter, escape? c = some ['\\', letter] ∧ escaped? letter = some c) ∨
      (∃ high low, escape? c = some ['\\', 'u', '0', '0', high, low] ∧
        codePoint? ['0', '0', high, low] = some c) ∨
      escape? c = none ∧ isControl c = false ∧ c ≠ '\\' := by
  fun_cases escape? c with
  | case6 c _ _ _ _ backslash control =>
    have short : c.toNat < 256 := by
      simp [isControl] at control
      omega
    exact .inr (.inl ⟨_, _, rfl, codePoint?_hexDigit short⟩)
  | case7 c _ _ _ _ backslash calm =>
    exact .inr (.inr ⟨rfl, Bool.eq_false_iff.2 calm, backslash⟩)
  | _ => exact .inl ⟨_, rfl, rfl⟩

/-- What a reader does with the characters of a string between double quotes. -/
structure Unescapes (read : List Char → Option (List Char × List Char)) : Prop where
  letter : ∀ {x c}, escaped? x = some c → ∀ rest,
    read ('\\' :: x :: rest) = (read rest).map (prepend c)
  digits : ∀ {a b c d x}, codePoint? [a, b, c, d] = some x → ∀ rest,
    read ('\\' :: 'u' :: a :: b :: c :: d :: rest) = (read rest).map (prepend x)
  plain : ∀ {c}, isPlain c = true → c ≠ '"' → c ≠ '\\' → ∀ rest,
    read (c :: rest) = (read rest).map (prepend c)

theorem Unescapes.character {read : List Char → Option (List Char × List Char)}
    (h : Unescapes read) {c : Char} (quote : c ≠ '"') (newline : c ≠ '\n') (rest : List Char) :
    read ((escape? c).getD [c] ++ rest) = (read rest).map (prepend c) := by
  rcases escape?_cases c with
    ⟨_, written, means⟩ | ⟨_, _, written, means⟩ | ⟨written, calm, backslash⟩
  · rw [written]
    exact h.letter means rest
  · rw [written]
    exact h.digits means rest
  · rw [written]
    exact h.plain (isPlain_of_not_isControl calm newline) quote backslash rest

theorem ne_of_escaped? {x c : Char} (means : escaped? x = some c) : x ≠ 'u' ∧ x ≠ 'U' := by
  constructor <;> rintro rfl <;> cases means

theorem unescapes_basic? : Unescapes basic? where
  letter {x c} means rest := by
    obtain ⟨short, long⟩ := ne_of_escaped? means
    rw [basic?, means]
    · cases basic? rest <;> rfl
    all_goals simp [short, long]
  digits {a b c d x} means rest := by
    rw [basic?, means]
    cases basic? rest <;> rfl
  plain {c} plain quote backslash rest := by
    rw [basic?, if_pos plain]
    · cases basic? rest <;> rfl
    all_goals simp [quote, backslash]

theorem basic?_body (text rest : List Char) :
    basic? (basicBody text ++ '"' :: rest) = some (text, rest) := by
  induction text with
  | nil => rfl
  | cons c text ih =>
    have written : basic? (basicBody (c :: text) ++ '"' :: rest) =
        (basic? (basicBody text ++ '"' :: rest)).map (prepend c) := by
      rw [basicBody, List.flatMap_cons, List.append_assoc, ← basicBody]
      split
      · exact unescapes_basic?.letter rfl _
      · exact unescapes_basic?.letter rfl _
      · next quote newline => exact unescapes_basic?.character quote newline _
    rw [written, ih]
    rfl

theorem unescapes_multilineBasic? : Unescapes (multilineBasic? false) where
  letter {x c} means rest := by
    obtain ⟨short, long⟩ := ne_of_escaped? means
    have same : startsLine ((x :: rest).dropWhile isBlank) = false := by
      simp only [escaped?] at means
      split at means <;> first | rfl | cases means
    rw [multilineBasic?, means, if_neg (by simp [same])]
    · cases multilineBasic? false rest <;> rfl
    all_goals simp [short, long]
  digits {a b c d x} means rest := by
    rw [multilineBasic?, means]
    cases multilineBasic? false rest <;> rfl
  plain {c} plain quote backslash rest := by
    obtain ⟨newline, carriage⟩ : c ≠ '\n' ∧ c ≠ '\r' := by
      constructor <;> rintro rfl <;> cases plain
    rw [multilineBasic?, if_neg (by simp), if_pos plain]
    · cases multilineBasic? false rest <;> rfl
    all_goals simp [quote, backslash, newline, carriage]

def follow (front : List Char) (found : List Char × List Char) : List Char × List Char :=
  (front ++ found.1, found.2)

/-- What a reader does with the quotes of a string between three of a kind. -/
structure Fenced (quote : Char) (read : List Char → Option (List Char × List Char)) : Prop where
  closes : ∀ rest, read (quote :: quote :: quote :: rest) = some (closing quote rest)
  inside : ∀ rest, (∀ after, rest ≠ quote :: quote :: after) →
    read (quote :: rest) = (read rest).map (prepend quote)

namespace Fenced

variable {quote x : Char} {read : List Char → Option (List Char × List Char)} {n : Nat}

theorem pending (h : Fenced quote read) (few : n ≤ 2) (other : x ≠ quote) (rest : List Char) :
    read (List.replicate n quote ++ x :: rest) =
      (read (x :: rest)).map (follow (List.replicate n quote)) := by
  have one : ∀ rest, read (quote :: x :: rest) = (read (x :: rest)).map (prepend quote) :=
    fun rest => h.inside _ fun _ same => other (List.cons.inj same).1
  match n, few with
  | 0, _ => exact (Option.map_id' (x := read (x :: rest))).symm
  | 1, _ => exact one rest
  | 2, _ =>
    have two := h.inside (quote :: x :: rest) fun _ same =>
      other (List.cons.inj (List.cons.inj same).2).1
    rw [one, Option.map_map] at two
    exact two

theorem ended (h : Fenced quote read) (few : n ≤ 2) (other : x ≠ quote) (rest : List Char) :
    read (List.replicate n quote ++ quote :: quote :: quote :: x :: rest) =
      some (List.replicate n quote, x :: rest) := by
  have swap : List.replicate n quote ++ quote :: quote :: quote :: x :: rest =
      quote :: quote :: quote :: (List.replicate n quote ++ x :: rest) := by
    match n, few with
    | 0, _ | 1, _ | 2, _ => rfl
  have rests : closing quote (List.replicate n quote ++ x :: rest) =
      (List.replicate n quote, x :: rest) := by
    match n, few with
    | 0, _ => cases rest <;> simp [closing, other]
    | 1, _ | 2, _ => simp [closing, other, List.replicate_succ]
  rw [swap, h.closes, rests]

end Fenced

theorem fenced_multilineBasic? : Fenced '"' (multilineBasic? false) where
  closes rest := by rw [multilineBasic?]
  inside rest apart := by
    rw [multilineBasic?, if_neg (by simp), if_pos (by decide)]
    · cases multilineBasic? false rest <;> rfl
    · exact fun after _ => apart after
    all_goals simp

theorem fenced_multilineLiteral? : Fenced '\x27' multilineLiteral? where
  closes rest := by rw [multilineLiteral?]
  inside rest apart := by
    rw [multilineLiteral?, if_pos (by decide)]
    · cases multilineLiteral? rest <;> rfl
    · exact fun after _ => apart after
    all_goals simp

theorem head_escape? (c : Char) : ∃ x after, (escape? c).getD [c] = x :: after ∧
    (c ≠ '"' → x ≠ '"') ∧ (x = '\n' → c = '\n') ∧ x ≠ '\r' := by
  rcases escape?_cases c with ⟨_, written, -⟩ | ⟨_, _, written, -⟩ | ⟨written, calm, -⟩
  · exact ⟨'\\', _, by rw [written]; rfl, fun _ => by decide, nofun, by decide⟩
  · exact ⟨'\\', _, by rw [written]; rfl, fun _ => by decide, nofun, by decide⟩
  · exact ⟨c, [], by rw [written]; rfl, id, id, by rintro rfl; cases calm⟩

theorem multilineBody_cons {c : Char} (quote : c ≠ '"') (n : Nat) (text : List Char) :
    multilineBody n (c :: text) = (escape? c).getD [c] ++ multilineBody 0 text := by
  rw [multilineBody]
  exact quote

theorem multilineBasic?_character {c : Char} (quote : c ≠ '"') (rest : List Char) :
    multilineBasic? false ((escape? c).getD [c] ++ rest) =
      (multilineBasic? false rest).map (prepend c) := by
  by_cases newline : c = '\n'
  · subst newline
    change multilineBasic? false ('\n' :: rest) = _
    rw [multilineBasic?, if_neg (by simp)]
    cases multilineBasic? false rest <;> rfl
  · exact unescapes_multilineBasic?.character quote newline rest

/-- The text after `n` quotes that are read already: whether they belong to the text shows only with
what follows. -/
theorem multilineBasic?_body {x : Char} (other : x ≠ '"') (rest text : List Char) {n : Nat}
    (few : n ≤ 2) :
    multilineBasic? false
        (List.replicate n '"' ++ (multilineBody n text ++ '"' :: '"' :: '"' :: x :: rest)) =
      some (List.replicate n '"' ++ text, x :: rest) := by
  have fenced := fenced_multilineBasic?
  induction text generalizing n with
  | nil =>
    rw [multilineBody, List.nil_append, List.append_nil]
    exact fenced.ended few other rest
  | cons c text ih =>
    have next := @ih 0 (by decide)
    rw [List.replicate_zero, List.nil_append] at next
    by_cases quote : c = '"'
    · subst quote
      rw [multilineBody]
      by_cases full : n = 2
      · rw [if_pos full, List.cons_append, fenced.pending few (by decide), List.cons_append,
          unescapes_multilineBasic?.letter rfl, next]
        rfl
      · rw [if_neg full, List.cons_append, List.append_cons, ← List.replicate_succ',
          ih (by omega), List.replicate_succ', ← List.append_cons]
    · obtain ⟨y, after, first, apart, -⟩ := head_escape? c
      rw [multilineBody_cons quote, List.append_assoc, first, List.cons_append,
        fenced.pending few (apart quote), ← List.cons_append, ← first,
        multilineBasic?_character quote, next]
      rfl

def runStep (c : Char) (p : Nat × Nat) (x : Char) : Nat × Nat :=
  (max p.1 (if x = c then p.2 + 1 else 0), if x = c then p.2 + 1 else 0)

theorem longestRun_eq (c : Char) (text : List Char) :
    longestRun c text = (text.foldl (runStep c) (0, 0)).1 := rfl

section Runs

variable {c : Char} {p : Nat × Nat}

theorem le_foldl_runStep (text : List Char) : p.1 ≤ (text.foldl (runStep c) p).1 := by
  induction text generalizing p with
  | nil => exact Nat.le_refl _
  | cons x text ih => exact (Nat.le_max_left _ _).trans (@ih (runStep c p x))

theorem foldl_runStep_le (text : List Char) (current : p.2 ≤ p.1) :
    (text.foldl (runStep c) p).2 ≤ (text.foldl (runStep c) p).1 := by
  induction text generalizing p with
  | nil => exact current
  | cons x text ih => exact ih (Nat.le_max_right _ _)

theorem foldl_runStep_replicate (n : Nat) (current : p.2 ≤ p.1) :
    p.2 + n ≤ ((List.replicate n c).foldl (runStep c) p).1 := by
  induction n generalizing p with
  | zero => exact current
  | succ n ih =>
    have step : (runStep c p c).2 = p.2 + 1 := if_pos rfl
    have := @ih (runStep c p c) (Nat.le_max_right _ _)
    rw [List.replicate_succ, List.foldl_cons]
    omega

theorem le_longestRun {n : Nat} {text : List Char} (run : List.replicate n c <:+: text) :
    n ≤ longestRun c text := by
  obtain ⟨before, after, rfl⟩ := run
  rw [longestRun_eq, List.foldl_append, List.foldl_append]
  have current : (before.foldl (runStep c) (0, 0)).2 ≤ (before.foldl (runStep c) (0, 0)).1 :=
    foldl_runStep_le before (Nat.le_refl _)
  calc n ≤ (before.foldl (runStep c) (0, 0)).2 + n := Nat.le_add_left _ _
    _ ≤ _ := foldl_runStep_replicate n current
    _ ≤ _ := le_foldl_runStep after

end Runs

theorem multilineLiteral?_character {c : Char} (calm : isControl c = false) (quote : c ≠ '\x27')
    (rest : List Char) :
    multilineLiteral? (c :: rest) = (multilineLiteral? rest).map (prepend c) := by
  by_cases newline : c = '\n'
  · subst newline
    rw [multilineLiteral?]
    cases multilineLiteral? rest <;> rfl
  · have carriage : c ≠ '\r' := by
      rintro rfl
      cases calm
    rw [multilineLiteral?, if_pos (isPlain_of_not_isControl calm newline)]
    · cases multilineLiteral? rest <;> rfl
    all_goals simp [quote, newline, carriage]

/-- Nothing is escaped here, so a third quote in a row would close the string. -/
theorem multilineLiteral?_text {x : Char} (other : x ≠ '\x27') (rest text : List Char) {n : Nat}
    (few : n ≤ 2)
    (short : ¬List.replicate 3 '\x27' <:+: List.replicate n '\x27' ++ text)
    (calm : ∀ c ∈ text, isControl c = false) :
    multilineLiteral?
        (List.replicate n '\x27' ++ (text ++ '\x27' :: '\x27' :: '\x27' :: x :: rest)) =
      some (List.replicate n '\x27' ++ text, x :: rest) := by
  have fenced := fenced_multilineLiteral?
  induction text generalizing n with
  | nil =>
    rw [List.nil_append, List.append_nil]
    exact fenced.ended few other rest
  | cons c text ih =>
    obtain ⟨now, later⟩ := List.forall_mem_cons.1 calm
    by_cases quote : c = '\x27'
    · subst quote
      rw [List.append_cons, ← List.replicate_succ'] at short
      have room : n + 1 ≤ 2 := by
        by_contra full
        obtain rfl : n = 2 := by omega
        exact short (List.prefix_append _ _).isInfix
      rw [List.cons_append, List.append_cons, ← List.replicate_succ', ih room short later,
        List.replicate_succ', ← List.append_cons]
    · have tail : text <:+: List.replicate n '\x27' ++ c :: text :=
        (List.suffix_append_of_suffix (List.suffix_cons c text)).isInfix
      have next := @ih 0 (by decide) (fun run => short (run.trans tail)) later
      rw [List.replicate_zero, List.nil_append] at next
      rw [List.cons_append, fenced.pending few quote, multilineLiteral?_character now quote, next]
      rfl

theorem literal?_text {rest text : List Char} (quote : '\x27' ∉ text)
    (plain : ∀ c ∈ text, isPlain c = true) :
    literal? (text ++ '\x27' :: rest) = some (text, rest) := by
  induction text with
  | nil => rfl
  | cons c text ih =>
    obtain ⟨now, later⟩ := List.forall_mem_cons.1 plain
    rw [List.mem_cons, not_or] at quote
    rw [List.cons_append, literal?, if_pos now, ih quote.2 later]
    · rfl
    · exact fun same => quote.1 same.symm

theorem longestRun_pos {c : Char} {text : List Char} (member : c ∈ text) :
    0 < longestRun c text :=
  le_longestRun (n := 1) ((List.singleton_infix_iff c text).2 member)

theorem of_styleOf_literal {text : List Char} (style : styleOf text = .literal) :
    text ≠ [] ∧ '\x27' ∉ text ∧ ∀ c ∈ text, isPlain c = true := by
  have nonempty : text ≠ [] := by
    rintro rfl
    cases style
  simp only [styleOf] at style
  split_ifs at style with _ fits
  obtain ⟨⟨calm, quotes⟩, newline⟩ : ((∀ c ∈ text, isControl c = false) ∧
      longestRun '\x27' text = 0) ∧ '\n' ∉ text := by simpa using fits
  refine ⟨nonempty, fun quote => ?_, fun c member => ?_⟩
  · exact absurd (longestRun_pos quote) (quotes ▸ Nat.lt_irrefl 0)
  · exact isPlain_of_not_isControl (calm c member) fun same => newline (same ▸ member)

theorem of_styleOf_multilineLiteral {text : List Char}
    (style : styleOf text = .multilineLiteral) :
    longestRun '\x27' text ≤ 2 ∧ ∀ c ∈ text, isControl c = false := by
  simp only [styleOf] at style
  split_ifs at style with _ _ _ fits
  obtain ⟨calm, quotes⟩ : (∀ c ∈ text, isControl c = false) ∧ longestRun '\x27' text ≤ 2 := by
    simpa using fits
  exact ⟨quotes, calm⟩

theorem dropLineEnd_opening {text : List Char} {x : Char} (body : List Char)
    (newline : x = '\n' → '\n' ∈ text) (carriage : x ≠ '\r') :
    dropLineEnd (opening text ++ x :: body) = x :: body := by
  by_cases breaks : '\n' ∈ text
  · rw [opening, if_pos (by simpa using breaks)]
    rfl
  · rw [opening, if_neg (by simpa using breaks), List.nil_append, dropLineEnd]
    · exact fun _ same => breaks (newline (List.cons.inj same).1)
    · exact fun _ same => carriage (List.cons.inj same).1

theorem head_basicBody (c : Char) (text : List Char) :
    ∃ x after, basicBody (c :: text) = x :: after ∧ x ≠ '"' := by
  rw [basicBody, List.flatMap_cons]
  split
  · exact ⟨_, _, rfl, by decide⟩
  · exact ⟨_, _, rfl, by decide⟩
  · next quote _ =>
    obtain ⟨x, after, first, apart, -⟩ := head_escape? c
    exact ⟨x, _, by rw [first]; rfl, apart quote⟩

theorem head_multilineBody (text after : List Char) :
    ∃ x body, multilineBody 0 text ++ '"' :: after = x :: body ∧ (x = '\n' → '\n' ∈ text) ∧
      x ≠ '\r' := by
  cases text with
  | nil => exact ⟨_, _, rfl, nofun, by decide⟩
  | cons c text =>
    by_cases quote : c = '"'
    · subst quote
      exact ⟨_, _, rfl, nofun, by decide⟩
    · obtain ⟨x, body, first, -, newline, carriage⟩ := head_escape? c
      exact ⟨x, _, by rw [multilineBody_cons quote, first]; rfl,
        fun same => newline same ▸ List.mem_cons_self, carriage⟩

theorem string_quoted (text rest : List Char) :
    Lexical.string (Quoting.string text ++ '\n' :: rest) = some (text, '\n' :: rest) := by
  rw [Quoting.string]
  cases style : styleOf text with
  | basic =>
    dsimp only
    rw [List.append_assoc, List.cons_append, List.singleton_append, Lexical.string, basic?_body]
    intro after same
    cases text with
    | nil => cases same
    | cons c text =>
      obtain ⟨x, body, first, quote⟩ := head_basicBody c text
      rw [first] at same
      exact quote (List.cons.inj same).1
  | literal =>
    obtain ⟨nonempty, quote, plain⟩ := of_styleOf_literal style
    dsimp only
    rw [List.append_assoc, List.cons_append, List.singleton_append, Lexical.string,
      literal?_text quote plain]
    intro after same
    obtain ⟨c, text, rfl⟩ := List.exists_cons_of_ne_nil nonempty
    obtain rfl := (List.cons.inj same).1
    exact quote List.mem_cons_self
  | multilineBasic =>
    obtain ⟨x, body, first, newline, carriage⟩ :=
      head_multilineBody text ('"' :: '"' :: '\n' :: rest)
    have read := multilineBasic?_body (by decide : '\n' ≠ '"') rest text (Nat.zero_le 2)
    rw [List.replicate_zero, List.nil_append, List.nil_append] at read
    simp only [List.append_assoc, List.cons_append, List.nil_append]
    rw [Lexical.string, first, dropLineEnd_opening body newline carriage, ← first, read]
  | multilineLiteral =>
    obtain ⟨short, calm⟩ := of_styleOf_multilineLiteral style
    have read := multilineLiteral?_text (by decide : '\n' ≠ '\x27') rest text (Nat.zero_le 2)
      (fun run => absurd ((le_longestRun run).trans short) (by decide)) calm
    rw [List.replicate_zero, List.nil_append, List.nil_append] at read
    simp only [List.append_assoc, List.cons_append, List.nil_append]
    rw [Lexical.string]
    cases text with
    | nil => exact read
    | cons c text =>
      rw [List.cons_append, dropLineEnd_opening _ (fun same => same ▸ List.mem_cons_self)]
      · exact read
      · rintro rfl
        cases calm _ List.mem_cons_self

theorem head_string (text : List Char) :
    ∃ quote after, Quoting.string text = quote :: after ∧ (quote = '"' ∨ quote = '\x27') := by
  rw [Quoting.string]
  cases styleOf text
  · exact ⟨_, _, rfl, .inl rfl⟩
  · exact ⟨_, _, rfl, .inr rfl⟩
  · exact ⟨_, _, rfl, .inl rfl⟩
  · exact ⟨_, _, rfl, .inr rfl⟩

end LiteModel.Toml
