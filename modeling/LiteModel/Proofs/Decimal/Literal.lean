import LiteModel.Proofs.Decimal.Range

/-! The texts of decimal numbers and the numbers that they stand for, by the shape of a text. A text
is read just when it has that shape and its number is in the finite range. -/
namespace LiteModel.Decimal

def Digits (text : List Char) : Prop := ∀ c ∈ text, c.isDigit = true

inductive Sign : List Char → Bool → Prop where
  | absent : Sign [] false
  | plus : Sign ['+'] false
  | minus : Sign ['-'] true

def signed {α : Type} [Neg α] (negative : Bool) (x : α) : α := if negative then -x else x

inductive Fraction : List Char → List Char → Prop where
  | absent : Fraction [] []
  | point {digits : List Char} (numeral : Digits digits) : Fraction ('.' :: digits) digits

inductive Power : List Char → ℤ → Prop where
  | absent : Power [] 0
  | written {mark : Char} {sign digits : List Char} {negative : Bool}
      (letter : mark = 'e' ∨ mark = 'E') (signs : Sign sign negative) (numeral : Digits digits)
      (nonempty : digits ≠ []) :
      Power (mark :: (sign ++ digits)) (signed negative (Nat.ofDigitChars 10 digits 0 : ℤ))

inductive Numeral : List Char → ℚ → Prop where
  | intro {whole point fraction power : List Char} {e : ℤ} (numeral : Digits whole)
      (decimals : Fraction point fraction) (raised : Power power e)
      (nonempty : whole ++ fraction ≠ []) :
      Numeral (whole ++ (point ++ power))
        (Nat.ofDigitChars 10 (whole ++ fraction) 0 * 10 ^ (e - fraction.length))

/-- The texts of decimal numbers, with the number that each one stands for. -/
inductive Denotes : List Char → ℚ → Prop where
  | intro {sign text : List Char} {negative : Bool} {x : ℚ} (signs : Sign sign negative)
      (numeral : Numeral text x) : Denotes (sign ++ text) (signed negative x)

namespace Binary32

def digitValue (c : Char) : Nat := c.toNat - '0'.toNat

theorem value_map (digits : List Char) :
    value (digits.map digitValue) = Nat.ofDigitChars 10 digits 0 := by
  rw [value, List.foldl_map]
  rfl

theorem digitValue_lt {c : Char} (h : c.isDigit = true) : digitValue c < 10 := by
  simp only [Char.isDigit, Bool.and_eq_true, decide_eq_true_eq, ge_iff_le, UInt32.le_iff_toNat_le]
    at h
  have last : c.toNat ≤ 57 := h.2
  have zero : '0'.toNat = 48 := rfl
  rw [digitValue]
  omega

theorem filterMap_digit? {digits : List Char} (numeral : Digits digits) :
    digits.filterMap digit? = digits.map digitValue := by
  induction digits with
  | nil => rfl
  | cons c rest ih =>
    obtain ⟨first, others⟩ := List.forall_mem_cons.1 numeral
    have here : digit? c = some (digitValue c) := if_pos first
    rw [List.filterMap_cons_some here, ih others, List.map_cons]

def Ends (rest : List Char) : Prop := ∀ c ∈ rest.head?, c.isDigit = false

theorem takeDigits_append {digits rest : List Char} (numeral : Digits digits) (ends : Ends rest) :
    takeDigits (digits ++ rest) = (digits.map digitValue, rest) := by
  have none : rest.takeWhile Char.isDigit = [] ∧ rest.dropWhile Char.isDigit = rest := by
    cases rest with
    | nil => exact ⟨rfl, rfl⟩
    | cons c rest =>
      have other : ¬ c.isDigit = true := by simp [ends c rfl]
      exact ⟨List.takeWhile_cons_of_neg other, List.dropWhile_cons_of_neg other⟩
  rw [takeDigits, List.takeWhile_append_of_pos numeral, List.dropWhile_append_of_pos numeral,
    none.1, none.2, List.append_nil, filterMap_digit? numeral]

theorem exists_digits (text : List Char) :
    ∃ digits rest, Digits digits ∧ Ends rest ∧ text = digits ++ rest := by
  refine ⟨text.takeWhile Char.isDigit, text.dropWhile Char.isDigit,
    fun c member => List.mem_takeWhile_imp member, fun c first => ?_,
    List.takeWhile_append_dropWhile.symm⟩
  have stop := List.head?_dropWhile_not Char.isDigit text
  rw [first] at stop
  exact stop

theorem takeSign_append {sign rest : List Char} {negative : Bool} (s : Sign sign negative)
    (unsigned : ∀ c ∈ rest.head?, c ≠ '+' ∧ c ≠ '-') :
    takeSign (sign ++ rest) = (negative, rest) := by
  cases s with
  | plus => rfl
  | minus => rfl
  | absent =>
    cases rest with
    | nil => rfl
    | cons c rest =>
      obtain ⟨plus, minus⟩ := unsigned c rfl
      simp [takeSign, plus, minus]

theorem exists_sign (text : List Char) : ∃ sign negative rest, Sign sign negative ∧
    text = sign ++ rest ∧ takeSign text = (negative, rest) := by
  unfold takeSign
  split
  next rest => exact ⟨['+'], false, rest, .plus, rfl, rfl⟩
  next rest => exact ⟨['-'], true, rest, .minus, rfl, rfl⟩
  next => exact ⟨[], false, _, .absent, rfl, rfl⟩

theorem unsigned_of_isDigit {c : Char} (h : c.isDigit = true) : c ≠ '+' ∧ c ≠ '-' := by
  constructor <;> rintro rfl <;> cases h

theorem exponent?_eq_some_iff {text : List Char} {e : ℤ} :
    exponent? text = some e ↔ Power text e := by
  constructor
  · intro h
    unfold exponent? at h
    split at h
    · cases h
      exact .absent
    next mark rest =>
      split at h
      next letter =>
        obtain ⟨sign, negative, text, signs, rfl, taken⟩ := exists_sign rest
        obtain ⟨digits, rest, numeral, ends, rfl⟩ := exists_digits text
        rw [taken] at h
        dsimp only at h
        rw [takeDigits_append numeral ends] at h
        cases rest with
        | cons c rest => cases digits <;> cases h
        | nil =>
          cases digits with
          | nil => cases h
          | cons d digits =>
            cases h
            rw [← List.map_cons, value_map, List.append_nil]
            exact .written letter signs numeral (List.cons_ne_nil _ _)
      next => cases h
  · rintro (_ | ⟨letter, signs, numeral, nonempty⟩)
    · rfl
    next mark sign digits negative =>
      cases digits with
      | nil => exact absurd rfl nonempty
      | cons d digits =>
        have first : ∀ c ∈ (d :: digits).head?, c ≠ '+' ∧ c ≠ '-' := by
          rintro c ⟨⟩
          exact unsigned_of_isDigit (numeral d List.mem_cons_self)
        have taken := takeDigits_append numeral (show Ends [] by simp [Ends])
        rw [List.append_nil, List.map_cons] at taken
        rw [exponent?, if_pos letter, takeSign_append signs first]
        dsimp only
        rw [taken]
        dsimp only
        rw [← List.map_cons, value_map]
        rfl

theorem head?_of_power {text : List Char} {e : ℤ} (h : Power text e) :
    ∀ c ∈ text.head?, c.isDigit = false ∧ c ≠ '.' := by
  cases h with
  | absent => simp
  | written letter => rcases letter with rfl | rfl <;> rintro c ⟨⟩ <;> decide

def Stops (point rest : List Char) : Prop := Ends rest ∧ (point = [] → ∀ c ∈ rest.head?, c ≠ '.')

theorem magnitude?_append {whole point fraction rest : List Char} (numeral : Digits whole)
    (decimals : Fraction point fraction) (stops : Stops point rest) :
    magnitude? (whole ++ (point ++ rest)) = if whole ++ fraction = [] then none else
      (exponent? rest).map fun e => ⟨(whole ++ fraction).map digitValue, e - fraction.length⟩ := by
  obtain ⟨ends, pointless⟩ := stops
  have size : ((whole ++ fraction).map digitValue).isEmpty = true ↔ whole ++ fraction = [] := by
    simp
  cases decimals with
  | absent =>
    rw [magnitude?, List.nil_append, takeDigits_append numeral ends]
    dsimp only
    split
    next => exact absurd rfl (pointless rfl _ rfl)
    next => cases exponent? rest <;> simp_all
  | point decimals =>
    have dot : Ends ('.' :: fraction ++ rest) := by
      rintro c ⟨⟩
      decide
    rw [magnitude?, takeDigits_append numeral dot]
    dsimp only [List.cons_append]
    split
    next others same =>
      cases same
      rw [takeDigits_append decimals ends]
      cases exponent? rest <;> simp_all
    next other => exact absurd rfl (other _)

theorem exists_numeral (text : List Char) : ∃ whole point fraction rest, Digits whole ∧
    Fraction point fraction ∧ Stops point rest ∧ text = whole ++ (point ++ rest) := by
  obtain ⟨whole, rest, numeral, ends, rfl⟩ := exists_digits text
  by_cases dot : rest.head? = some '.'
  · obtain ⟨rest, rfl⟩ : ∃ others, rest = '.' :: others := List.head?_eq_some_iff.1 dot
    obtain ⟨fraction, rest, decimals, last, rfl⟩ := exists_digits rest
    exact ⟨whole, _, fraction, rest, numeral, .point decimals, ⟨last, nofun⟩, rfl⟩
  · refine ⟨whole, [], [], rest, numeral, .absent, ⟨ends, fun _ c first => ?_⟩, rfl⟩
    rintro rfl
    exact dot first

theorem unsigned_of_numeral {text : List Char} {x : ℚ} (h : Numeral text x) :
    ∀ c ∈ text.head?, c ≠ '+' ∧ c ≠ '-' := by
  obtain ⟨numeral, decimals, -, nonempty⟩ := h
  next whole point fraction power _ =>
    cases whole with
    | cons d rest =>
      rintro c ⟨⟩
      exact unsigned_of_isDigit (numeral d List.mem_cons_self)
    | nil =>
      cases decimals with
      | absent => exact absurd rfl nonempty
      | point =>
        rintro c ⟨⟩
        decide

theorem numeral_iff {text : List Char} {x : ℚ} :
    Numeral text x ↔ ∃ m, magnitude? text = some m ∧ m.value = x := by
  constructor
  · rintro ⟨numeral, decimals, raised, nonempty⟩
    next whole point fraction power e =>
      have stops : Stops point power :=
        ⟨fun c first => (head?_of_power raised c first).1, fun _ c first => (head?_of_power raised c first).2⟩
      rw [magnitude?_append numeral decimals stops, if_neg nonempty,
        exponent?_eq_some_iff.2 raised]
      refine ⟨_, rfl, ?_⟩
      rw [Magnitude.value, value_map]
  · rintro ⟨m, read, rfl⟩
    obtain ⟨whole, point, fraction, rest, numeral, decimals, stops, rfl⟩ := exists_numeral text
    rw [magnitude?_append numeral decimals stops] at read
    split at read
    next => cases read
    next nonempty =>
      obtain ⟨e, raised, rfl⟩ := Option.map_eq_some_iff.1 read
      rw [Magnitude.value, value_map]
      exact .intro numeral decimals (exponent?_eq_some_iff.1 raised) nonempty

theorem digits_of_magnitude? {text : List Char} {m : Magnitude} (read : magnitude? text = some m) :
    ∀ d ∈ m.digits, d < 10 := by
  obtain ⟨whole, point, fraction, rest, numeral, decimals, stops, rfl⟩ := exists_numeral text
  rw [magnitude?_append numeral decimals stops] at read
  split at read
  next => cases read
  next =>
    obtain ⟨e, -, rfl⟩ := Option.map_eq_some_iff.1 read
    have digits : Digits (whole ++ fraction) := by
      cases decimals with
      | absent => rwa [List.append_nil]
      | point decimals => exact List.forall_mem_append.2 ⟨numeral, decimals⟩
    intro d member
    obtain ⟨c, place, rfl⟩ := List.mem_map.1 member
    exact digitValue_lt (digits c place)

theorem Magnitude.value_nonneg (m : Magnitude) : 0 ≤ m.value := by
  unfold Magnitude.value
  positivity

theorem abs_signed (negative : Bool) (x : ℚ) : |signed negative x| = |x| := by
  cases negative
  · rfl
  · exact abs_neg x

theorem isSome_ofText?_iff {text : List Char} :
    (ofText? text).isSome = true ↔ ∃ q, Denotes text q ∧ |q| < overflow := by
  have reads : ∀ {negative rest m}, takeSign text = (negative, rest) → magnitude? rest = some m →
      ((ofText? text).isSome = true ↔ |signed negative m.value| < overflow) := by
    intro negative rest m taken read
    rw [abs_signed, abs_of_nonneg m.value_nonneg,
      ← Magnitude.isSome_bits?_iff (digits_of_magnitude? read), ofText?, taken]
    dsimp only
    rw [read, Option.bind_eq_bind, Option.bind_some]
    cases m.bits? <;> rfl
  constructor
  · intro h
    obtain ⟨sign, negative, rest, signs, rfl, taken⟩ := exists_sign text
    cases read : magnitude? rest with
    | none => simp [ofText?, taken, read] at h
    | some m => exact ⟨_, .intro signs (numeral_iff.2 ⟨m, read, rfl⟩), (reads taken read).1 h⟩
  · rintro ⟨_, ⟨signs, numeral⟩, small⟩
    obtain ⟨m, read, rfl⟩ := numeral_iff.1 numeral
    exact (reads (takeSign_append signs (unsigned_of_numeral numeral)) read).2 small

example : ofText? "3.4028235677973366e38".toList = some 0x7f7fffff ∧
    ofText? "3.4028235677973367e38".toList = none := by decide +kernel

end Binary32

end LiteModel.Decimal
