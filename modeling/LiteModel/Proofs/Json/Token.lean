import Mathlib.Data.List.TakeWhile
import LiteModel.Json.Text
import LiteModel.Json.Token

/-! Tokens of printed texts. What a printer writes is scanned to the tokens that it stands for, in
front of anything that does not go on with its last token; only a number can be gone on with. -/
namespace LiteModel.Json

namespace Token

def Ends (rest : List Char) : Prop :=
  ∀ c ∈ rest.head?, c.isDigit = false ∧ c ≠ '.' ∧ c ≠ 'e' ∧ c ≠ 'E'

/-- The text is scanned to these tokens, whatever comes after it. -/
def Spells (text : List Char) (tokens : List Token) : Prop :=
  tokens.length ≤ text.length ∧ ∀ rest fuel, Ends rest →
    scanFor (fuel + tokens.length) (text ++ rest) = tokens ++ scanFor fuel rest

inductive Mark : Char → Token → Prop where
  | openObject : Mark '\x7b' .openObject
  | closeObject : Mark '\x7d' .closeObject
  | openArray : Mark '[' .openArray
  | closeArray : Mark ']' .closeArray
  | colon : Mark ':' .colon
  | comma : Mark ',' .comma

theorem ends_nil : Ends [] := nofun

theorem Mark.ends {c : Char} {token : Token} (mark : Mark c token) (rest : List Char) :
    Ends (c :: rest) := by
  intro d first
  cases first
  cases mark <;> decide

theorem scanFor_next {c : Char} (visible : isBlank c = false) {text rest : List Char}
    {token : Token} (first : next (c :: text) = (token, rest)) (fuel : Nat) :
    scanFor (fuel + 1) (c :: text) = token :: scanFor fuel rest := by
  rw [scanFor, List.dropWhile_cons_of_neg (by simp [visible])]
  dsimp only
  rw [first]

theorem scanFor_nil (fuel : Nat) : scanFor fuel [] = [] := by cases fuel <;> rfl

theorem scanFor_mark {c : Char} {token : Token} (mark : Mark c token) (fuel : Nat)
    (rest : List Char) : scanFor (fuel + 1) (c :: rest) = token :: scanFor fuel rest := by
  have visible : isBlank c = false := by cases mark <;> decide
  have first : next (c :: rest) = (token, rest) := by cases mark <;> rfl
  exact scanFor_next visible first fuel

namespace Spells

variable {text after : List Char} {tokens later : List Token} {c : Char} {token : Token}

theorem nil : Spells [] [] := ⟨Nat.le_refl _, fun _ _ _ => rfl⟩

theorem scan_eq (h : Spells text tokens) : scan (String.ofList text) = tokens := by
  obtain ⟨enough, scanned⟩ := h
  have all := scanned [] (text.length - tokens.length) ends_nil
  rw [Nat.sub_add_cancel enough, List.append_nil, scanFor_nil, List.append_nil] at all
  rw [scan, String.toList_ofList, all]

theorem single (visible : isBlank c = false)
    (first : ∀ rest, Ends rest → next (c :: (text ++ rest)) = (token, rest)) :
    Spells (c :: text) [token] := by
  refine ⟨by simp, fun rest fuel ends => ?_⟩
  exact scanFor_next visible (first rest ends) fuel

theorem mark (before : Mark c token) (h : Spells text tokens) :
    Spells (c :: text) (token :: tokens) := by
  refine ⟨Nat.succ_le_succ h.1, fun rest fuel ends => ?_⟩
  rw [List.length_cons, ← Nat.add_assoc, List.cons_append, scanFor_mark before, h.2 rest fuel ends,
    List.cons_append]

theorem append (h : Spells text tokens) (between : Mark c token) (k : Spells after later) :
    Spells (text ++ c :: after) (tokens ++ token :: later) := by
  have second := k.mark between
  refine ⟨?_, fun rest fuel ends => ?_⟩
  · rw [List.length_append, List.length_append]
    exact Nat.add_le_add h.1 second.1
  · rw [List.length_append, Nat.add_comm tokens.length, ← Nat.add_assoc, List.append_assoc,
      List.cons_append, h.2 _ _ (between.ends _), ← List.cons_append, second.2 rest fuel ends,
      List.append_assoc]

end Spells

def prepend (unit : Nat) (found : List Nat × List Char) : List Nat × List Char :=
  (unit :: found.1, found.2)

theorem units?_escape {c : Char} {unit : Nat} (letter : escaped? c = some unit) (rest : List Char) :
    units? ('\\' :: c :: rest) = (units? rest).map (prepend unit) := by
  have other : c ≠ 'u' := by
    rintro rfl
    cases letter
  rw [units?, letter]
  · cases units? rest <;> rfl
  · exact fun _ _ _ _ _ same _ => other same

theorem units?_hex {a b c d : Char} {unit : Nat} (digits : hex4? a b c d = some unit)
    (rest : List Char) :
    units? ('\\' :: 'u' :: a :: b :: c :: d :: rest) = (units? rest).map (prepend unit) := by
  rw [units?, digits]
  cases units? rest <;> rfl

theorem units?_plain {c : Char} (visible : ¬c.toNat < 0x20) (quote : c ≠ '"') (backslash : c ≠ '\\')
    (rest : List Char) : units? (c :: rest) = (units? rest).map (prepend c.toNat) := by
  rw [units?, if_neg (by simp [visible, backslash])]
  · cases units? rest <;> rfl
  · exact quote
  · exact fun _ _ _ _ _ same _ => backslash same
  · exact fun _ _ same _ => backslash same

theorem hexValue?_hexDigit : ∀ n < 16, hexValue? (Text.hexDigit n) = some n := by decide

theorem units?_character (c : Char) (rest : List Char) :
    units? (Text.character c ++ rest) = (units? rest).map (prepend c.toNat) := by
  fun_cases Text.character c with
  | case8 c _ _ _ _ _ _ _ control =>
    have high := hexValue?_hexDigit (c.toNat / 16) (by omega)
    have low := hexValue?_hexDigit (c.toNat % 16) (by omega)
    have digits : hex4? '0' '0' (Text.hexDigit (c.toNat / 16)) (Text.hexDigit (c.toNat % 16)) =
        some c.toNat := by
      have zero : hexValue? '0' = some 0 := rfl
      simp only [hex4?, zero, high, low, Option.bind_eq_bind, Option.bind_some, pure,
        Option.some.injEq]
      omega
    exact units?_hex digits rest
  | case9 c quote backslash _ _ _ _ _ visible => exact units?_plain visible quote backslash rest
  | _ => exact units?_escape rfl rest

theorem units?_body (text rest : List Char) :
    units? (text.flatMap Text.character ++ '"' :: rest) = some (text.map Char.toNat, rest) := by
  induction text with
  | nil => rfl
  | cons c text ih =>
    rw [List.flatMap_cons, List.append_assoc, units?_character, ih]
    rfl

theorem characters?_map (text : List Char) : characters? (text.map Char.toNat) = some text := by
  induction text with
  | nil => rfl
  | cons c text ih =>
    have valid : c.toNat < 0xd800 ∨ 0xdfff < c.toNat ∧ c.toNat < 0x110000 := c.valid
    have noHigh : ¬(0xd800 ≤ c.toNat ∧ c.toNat < 0xdc00) := by omega
    have noLow : ¬(0xdc00 ≤ c.toNat ∧ c.toNat < 0xe000) := by omega
    rw [List.map_cons, characters?.eq_def]
    dsimp only
    rw [if_neg noHigh, if_neg noLow, ih, Char.ofNat_toNat]
    rfl

theorem spells_string (s : String) : Spells (Text.string s) [.string (some s)] := by
  have shape : Text.string s = '"' :: (s.toList.flatMap Text.character ++ ['"']) := rfl
  rw [shape]
  apply Spells.single (by decide)
  intro rest _
  rw [List.append_assoc, List.singleton_append, next, units?_body]
  dsimp only
  rw [characters?_map, Option.map_some, String.ofList_toList]

theorem spells_null : Spells Text.null [.null] := Spells.single (by decide) fun _ _ => rfl

theorem isDigit_hexDigit : ∀ n < 10, (Text.hexDigit n).isDigit = true := by decide

theorem value_hexDigit : ∀ n < 10, (Text.hexDigit n).toNat - '0'.toNat = n := by decide

theorem isDigit_of_mem_digits {n : Nat} : ∀ c ∈ Text.digits n, c.isDigit = true := by
  induction n using Nat.strongRecOn with
  | _ n ih =>
  rw [Text.digits]
  split
  next small =>
    intro c member
    rw [List.mem_singleton.1 member]
    exact isDigit_hexDigit n small
  next large =>
    intro c member
    rcases List.mem_append.1 member with front | last
    · exact ih (n / 10) (by omega) c front
    · rw [List.mem_singleton.1 last]
      exact isDigit_hexDigit _ (by omega)

theorem digitValues_digits (n : Nat) : digitValues (Text.digits n) =
    if n < 10 then [n] else digitValues (Text.digits (n / 10)) ++ [n % 10] := by
  rw [Text.digits]
  split
  next small => rw [digitValues, List.map_singleton, value_hexDigit n small]
  next large =>
    rw [digitValues, List.map_append, List.map_singleton, value_hexDigit _ (by omega), digitValues]

theorem digitValues_ne_nil (n : Nat) : digitValues (Text.digits n) ≠ [] := by
  rw [digitValues_digits]
  split <;> simp

theorem head_digits {n : Nat} (first : (digitValues (Text.digits n)).head? = some 0) : n = 0 := by
  induction n using Nat.strongRecOn with
  | _ n ih =>
  rw [digitValues_digits] at first
  split at first
  next => simpa using first
  next large =>
    rw [List.head?_append, List.head?_eq_some_head (digitValues_ne_nil _), Option.some_or,
      ← List.head?_eq_some_head] at first
    have zero := ih (n / 10) (by omega) first
    omega

theorem takeDigits_append {digits rest : List Char} (all : ∀ c ∈ digits, c.isDigit = true)
    (ends : Ends rest) : takeDigits (digits ++ rest) = (digitValues digits, rest) := by
  have stop : rest.takeWhile Char.isDigit = [] ∧ rest.dropWhile Char.isDigit = rest := by
    cases rest with
    | nil => exact ⟨rfl, rfl⟩
    | cons c rest =>
      have other : ¬c.isDigit = true := by simp [(ends c rfl).1]
      exact ⟨List.takeWhile_cons_of_neg other, List.dropWhile_cons_of_neg other⟩
  rw [takeDigits, List.takeWhile_append_of_pos all, List.dropWhile_append_of_pos all, stop.1,
    stop.2, List.append_nil]

def appended (start : Nat) (digits : List Nat) : Nat := digits.foldl (fun n d => n * 10 + d) start

theorem le_appended (start : Nat) (digits : List Nat) : start ≤ appended start digits := by
  induction digits generalizing start with
  | nil => exact Nat.le_refl _
  | cons d rest ih =>
    have first : start ≤ start * 10 + d := by omega
    exact Nat.le_trans first (ih _)

theorem appendDigits_eq {digits : List Nat} {start : Nat}
    (fits : appended start digits < UInt64.size) :
    Number.appendDigits start digits = (appended start digits, digits.length) := by
  induction digits generalizing start with
  | nil => rfl
  | cons d rest ih =>
    have next : start * 10 + d < UInt64.size := Nat.lt_of_le_of_lt (le_appended _ rest) fits
    rw [Number.appendDigits, if_pos next, ih fits]
    rfl

theorem appended_digits (n : Nat) : appended 0 (digitValues (Text.digits n)) = n := by
  induction n using Nat.strongRecOn with
  | _ n ih =>
  rw [digitValues_digits]
  split
  next => simp [appended]
  next large =>
    have before := ih (n / 10) (by omega)
    rw [appended] at before ⊢
    rw [List.foldl_append, before, List.foldl_cons, List.foldl_nil]
    omega

theorem ofDigits_digits (n : UInt64) :
    Number.ofDigits false (digitValues (Text.digits n.toNat)) none none = .natural n := by
  have whole := appended_digits n.toNat
  have all := appendDigits_eq (whole.symm ▸ n.toNat_lt)
  rw [whole] at all
  rw [Number.ofDigits, all]
  simp only [Nat.sub_self, UInt64.ofNat_toNat]

theorem number?_digits (n : UInt64) {rest : List Char} (ends : Ends rest) :
    number? false (Text.digits n.toNat ++ rest) = some (.natural n, rest) := by
  have all : ∀ c ∈ Text.digits n.toNat, c.isDigit = true := isDigit_of_mem_digits
  have taken := takeDigits_append all ends
  have value := ofDigits_digits n
  have alone : ∀ d e more, digitValues (Text.digits n.toNat) = d :: e :: more → d ≠ 0 := by
    rintro d e more shape rfl
    have zero := head_digits (n := n.toNat) (by rw [shape]; rfl)
    rw [zero, digitValues_digits] at shape
    cases shape
  have stop : ∀ c tail, rest = c :: tail → c ≠ '.' ∧ c ≠ 'e' ∧ c ≠ 'E' := by
    rintro c tail rfl
    exact (ends c rfl).2
  rw [number?.eq_def, taken]
  split
  next none => exact absurd (congrArg Prod.fst none) (digitValues_ne_nil _)
  next zero => exact absurd rfl (alone 0 _ _ (congrArg Prod.fst zero))
  next whole after _ _ same =>
    cases same
    split
    next => exact absurd rfl (stop '.' _ rfl).1
    next =>
      dsimp only [Option.bind_eq_bind, Option.bind_some]
      split
      next => exact absurd rfl (stop 'e' _ rfl).2.1
      next => exact absurd rfl (stop 'E' _ rfl).2.2
      next => rw [value]; rfl

theorem isBlank_of_isDigit {c : Char} (digit : c.isDigit = true) : isBlank c = false := by
  cases blank : isBlank c with
  | false => rfl
  | true =>
    simp only [isBlank, Bool.or_eq_true, beq_iff_eq] at blank
    obtain ((rfl | rfl) | rfl) | rfl := blank <;> cases digit

theorem next_of_isDigit {c : Char} {text rest : List Char} {n : Number}
    (digit : c.isDigit = true) (found : number? false (c :: text) = some (n, rest)) :
    next (c :: text) = (number n, rest) := by
  have other : ∀ (d : Char) (more : List Char), d.isDigit = false → c :: text ≠ d :: more := by
    rintro d more none same
    cases same
    cases none.symm.trans digit
  unfold next
  split
  case h_12 => rw [found]
  -- every other form of token starts with a character that is no digit
  all_goals
    next same => exact absurd same (other _ _ rfl)

theorem spells_digits (n : UInt64) :
    Spells (Text.digits n.toNat) [.number (.natural n)] := by
  have all := isDigit_of_mem_digits (n := n.toNat)
  cases shape : Text.digits n.toNat with
  | nil => exact absurd (congrArg digitValues shape) (digitValues_ne_nil _)
  | cons c more =>
    have digit : c.isDigit = true := all c (by rw [shape]; exact List.mem_cons_self)
    refine Spells.single (isBlank_of_isDigit digit) fun rest ends => ?_
    have found := number?_digits n ends
    rw [shape, List.cons_append] at found
    exact next_of_isDigit digit found

end Token

end LiteModel.Json
