import Mathlib
import LiteModel.Decimal.Binary32

/-! Which numbers have a finite 32-bit number nearest to them. -/
namespace LiteModel.Decimal

theorem roundToEven_lt_iff {num den k : Nat} (positive : 0 < den) (even : k % 2 = 0) :
    roundToEven num den < k ↔ 2 * num + den < 2 * (k * den) := by
  have parts : den * (num / den) + num % den = num := Nat.div_add_mod num den
  have small : num % den < den := Nat.mod_lt num positive
  have rounded : roundToEven num den = if 2 * (num % den) < den then num / den
    else if den < 2 * (num % den) then num / den + 1
    else if num / den % 2 = 0 then num / den else num / den + 1 := rfl
  rw [rounded]
  generalize num / den = q at *
  generalize num % den = r at *
  rcases Nat.lt_trichotomy (q + 1) k with below | rfl | above
  · have room : (q + 2) * den ≤ k * den := Nat.mul_le_mul_right den below
    have expand : (q + 2) * den = den * q + 2 * den := by ring
    split_ifs <;> constructor <;> intro <;> omega
  · have expand : (q + 1) * den = den * q + den := by ring
    split_ifs <;> constructor <;> intro <;> omega
  · have room : k * den ≤ q * den := Nat.mul_le_mul_right den (by omega)
    have expand : q * den = den * q := by ring
    split_ifs <;> constructor <;> intro <;> omega

def inUnits (num den : Nat) (e : ℤ) : Nat × Nat :=
  if 0 ≤ e then (num, den * 2 ^ e.toNat) else (num * 2 ^ (-e).toNat, den)

section Units

variable {num den : Nat} (e : ℤ)

theorem inUnits_pos (positive : 0 < den) : 0 < (inUnits num den e).2 := by
  unfold inUnits
  split
  · exact Nat.mul_pos positive (Nat.two_pow_pos _)
  · exact positive

theorem inUnits_eq : ((inUnits num den e).1 : ℚ) / (inUnits num den e).2 = num / den / 2 ^ e := by
  unfold inUnits
  split
  next positive =>
    obtain ⟨n, rfl⟩ := Int.eq_ofNat_of_zero_le positive
    push_cast
    rw [Int.toNat_natCast, zpow_natCast, div_div]
  next negative =>
    obtain ⟨n, rfl⟩ : ∃ n : Nat, e = -n := ⟨(-e).toNat, by omega⟩
    push_cast
    rw [neg_neg, Int.toNat_natCast, zpow_neg, zpow_natCast, div_inv_eq_mul, mul_div_right_comm]

theorem le_inUnits_iff (positive : 0 < den) :
    (inUnits num den e).2 ≤ (inUnits num den e).1 ↔ (2 : ℚ) ^ e ≤ num / den := by
  have denominator : (0 : ℚ) < (inUnits num den e).2 := by
    exact_mod_cast inUnits_pos e positive
  rw [← one_le_div₀ (zpow_pos two_pos e), ← inUnits_eq, one_le_div₀ denominator, Nat.cast_le]

theorem roundToEven_inUnits_lt_iff {k : Nat} (positive : 0 < den) (even : k % 2 = 0) :
    roundToEven (inUnits num den e).1 (inUnits num den e).2 < k ↔
      (num / den : ℚ) < (k - 1 / 2) * 2 ^ e := by
  have denominator : (0 : ℚ) < (inUnits num den e).2 := by
    exact_mod_cast inUnits_pos e positive
  rw [roundToEven_lt_iff (inUnits_pos e positive) even, ← div_lt_iff₀ (zpow_pos two_pos e),
    ← inUnits_eq, div_lt_iff₀ denominator, ← Nat.cast_lt (α := ℚ)]
  push_cast
  constructor <;> intro <;> linarith

end Units

namespace Binary32

/-- Halfway from the largest finite number to the power of two above it, to which the half goes. -/
def overflow : ℚ := 2 ^ 128 - 2 ^ 103

/-- The lowest bit that is kept is 23 places below the highest one of the quotient, unless that is
too low. -/
theorem unitExponent_eq {num den : Nat} (numerator : 0 < num) (denominator : 0 < den) :
    ∃ top : ℤ, unitExponent num den = max (-149) (top - 23) ∧
      (2 : ℚ) ^ top ≤ num / den ∧ (num / den : ℚ) < 2 ^ (top + 1) := by
  let bits : ℤ := (num.log2 : ℤ) - den.log2
  have chosen : unitExponent num den = max (-149)
      (if (inUnits num den bits).2 ≤ (inUnits num den bits).1 then bits - 23 else bits - 24) := by
    unfold unitExponent inUnits
    dsimp only
    split <;> rfl
  -- both numbers lie between powers of two, so the quotient lies between two that are apart by two
  have numLow : (2 : ℚ) ^ (num.log2 : ℤ) ≤ num := by
    exact_mod_cast Nat.log2_self_le numerator.ne'
  have numHigh : (num : ℚ) < 2 ^ ((num.log2 : ℤ) + 1) := by
    exact_mod_cast Nat.lt_log2_self (n := num)
  have denLow : (2 : ℚ) ^ (den.log2 : ℤ) ≤ den := by
    exact_mod_cast Nat.log2_self_le denominator.ne'
  have denHigh : (den : ℚ) < 2 ^ ((den.log2 : ℤ) + 1) := by
    exact_mod_cast Nat.lt_log2_self (n := den)
  have positive : (0 : ℚ) < den := by exact_mod_cast denominator
  have below : (num / den : ℚ) < 2 ^ (bits + 1) := by
    rw [div_lt_iff₀ positive]
    calc (num : ℚ) < 2 ^ ((num.log2 : ℤ) + 1) := numHigh
      _ = 2 ^ (bits + 1) * 2 ^ (den.log2 : ℤ) := by
        rw [← zpow_add₀ two_ne_zero]
        congr 1
        omega
      _ ≤ 2 ^ (bits + 1) * den := by gcongr
  have above : (2 : ℚ) ^ (bits - 1) ≤ num / den := by
    rw [le_div_iff₀ positive]
    calc (2 : ℚ) ^ (bits - 1) * den ≤ 2 ^ (bits - 1) * 2 ^ ((den.log2 : ℤ) + 1) := by gcongr
      _ = 2 ^ (num.log2 : ℤ) := by
        rw [← zpow_add₀ two_ne_zero]
        congr 1
        omega
      _ ≤ num := numLow
  rw [chosen]
  by_cases reaches : (inUnits num den bits).2 ≤ (inUnits num den bits).1
  · rw [if_pos reaches]
    exact ⟨bits, rfl, (le_inUnits_iff bits denominator).1 reaches, below⟩
  · rw [if_neg reaches]
    refine ⟨bits - 1, by congr 1; omega, above, ?_⟩
    rw [sub_add_cancel]
    exact not_le.1 fun high => reaches ((le_inUnits_iff bits denominator).2 high)

theorem overflow_eq : overflow = ((2 ^ 24 : Nat) - 1 / 2) * 2 ^ (104 : ℤ) := by
  norm_num [overflow]

/-- The number `x`, whose highest bit is at `top`, is rounded to `s` units of `2 ^ e`. -/
structure Rounds (x : ℚ) (top e : ℤ) (s : Nat) : Prop where
  exponent : e = max (-149) (top - 23)
  low : (2 : ℚ) ^ top ≤ x
  high : x < 2 ^ (top + 1)
  significand : ∀ k : Nat, k % 2 = 0 → (s < k ↔ x < (k - 1 / 2) * 2 ^ e)

namespace Rounds

variable {x : ℚ} {top e : ℤ} {s : Nat}

theorem full_iff (h : Rounds x top 104 s) : s < 2 ^ 24 ↔ x < overflow := by
  rw [h.significand _ (by norm_num), ← overflow_eq]

theorem lt_overflow (h : Rounds x top e s)
    (finite : (e + 149).toNat * 0x800000 + s < 0x7f800000) : x < overflow := by
  have exponent := h.exponent
  by_contra large
  have tall : 127 < top + 1 := by
    rw [← zpow_lt_zpow_iff_right₀ (a := (2 : ℚ)) one_lt_two]
    calc (2 : ℚ) ^ (127 : ℤ) ≤ overflow := by norm_num [overflow]
      _ ≤ x := not_lt.1 large
      _ < 2 ^ (top + 1) := h.high
  rcases eq_or_ne e 104 with rfl | other
  · have full : ¬ s < 2 ^ 24 := fun below => large (h.full_iff.1 below)
    norm_num at full finite
    omega
  · have half : ¬ s < 2 ^ 23 := by
      rw [h.significand _ (by norm_num), not_lt]
      calc ((2 ^ 23 : Nat) - 1 / 2 : ℚ) * 2 ^ e ≤ 2 ^ (23 : ℤ) * 2 ^ e := by gcongr; norm_num
        _ = 2 ^ top := by
          rw [← zpow_add₀ two_ne_zero]
          congr 1
          omega
        _ ≤ x := h.low
    norm_num at half finite
    omega

theorem bits_lt (h : Rounds x top e s) (small : x < overflow) :
    (e + 149).toNat * 0x800000 + s < 0x7f800000 := by
  have exponent := h.exponent
  have short : top < 128 := by
    rw [← zpow_lt_zpow_iff_right₀ (a := (2 : ℚ)) one_lt_two]
    calc (2 : ℚ) ^ top ≤ x := h.low
      _ < overflow := small
      _ ≤ 2 ^ (128 : ℤ) := by norm_num [overflow]
  rcases eq_or_ne e 104 with rfl | other
  · have full : s < 2 ^ 24 := h.full_iff.2 small
    norm_num at full ⊢
    omega
  · -- rounding up may carry into the next power of two, and goes no further
    have near : s < 2 ^ 24 + 2 := by
      rw [h.significand _ (by norm_num)]
      calc x < 2 ^ (top + 1) := h.high
        _ ≤ 2 ^ (24 + e) := zpow_le_zpow_right₀ one_le_two (by omega)
        _ = 2 ^ (24 : ℤ) * 2 ^ e := zpow_add₀ two_ne_zero _ _
        _ ≤ ((2 ^ 24 + 2 : Nat) - 1 / 2) * 2 ^ e := by gcongr; norm_num
    norm_num at near ⊢
    omega

end Rounds

/-- A quotient has a finite number nearest to it just when it is nearer to the largest one than to
the power of two above. -/
theorem isSome_ofRatio?_iff {num den : Nat} (denominator : 0 < den) :
    (ofRatio? num den).isSome = true ↔ (num / den : ℚ) < overflow := by
  by_cases zero : num = 0
  · have positive : (0 : ℚ) < overflow := by norm_num [overflow]
    simp [zero, ofRatio?, positive]
  obtain ⟨top, exponent, low, high⟩ := unitExponent_eq (Nat.pos_of_ne_zero zero) denominator
  have rounded : (ofRatio? num den).isSome = true ↔ (unitExponent num den + 149).toNat * 0x800000 +
      roundToEven (inUnits num den (unitExponent num den)).1
        (inUnits num den (unitExponent num den)).2 < 0x7f800000 := by
    unfold ofRatio? inUnits
    rw [if_neg zero]
    dsimp only
    split <;> split <;> simp_all
  have rounds : Rounds (num / den) top (unitExponent num den) (roundToEven
      (inUnits num den (unitExponent num den)).1 (inUnits num den (unitExponent num den)).2) :=
    ⟨exponent, low, high, fun k even => roundToEven_inUnits_lt_iff _ denominator even⟩
  rw [rounded]
  exact ⟨rounds.lt_overflow, rounds.bits_lt⟩

theorem value_eq (digits : List Nat) : value digits = Nat.ofDigits 10 digits.reverse := by
  rw [Nat.ofDigits_eq_foldr, List.foldr_reverse, value]
  congr 1
  funext n d
  exact Nat.add_comm _ _

theorem value_dropWhile (digits : List Nat) : value (digits.dropWhile (· == 0)) = value digits := by
  induction digits with
  | nil => rfl
  | cons d rest ih =>
    cases d with
    | zero =>
      rw [List.dropWhile_cons_of_pos rfl, ih]
      rfl
    | succ d => rw [List.dropWhile_cons_of_neg (by simp)]

theorem value_lt {digits : List Nat} (small : ∀ d ∈ digits, d < 10) :
    value digits < 10 ^ digits.length := by
  rw [value_eq, ← List.length_reverse]
  exact Nat.ofDigits_lt_base_pow_length (by norm_num) fun d member =>
    small d (List.mem_reverse.1 member)

theorem pow_le_value {d : Nat} {rest : List Nat} (leading : d ≠ 0) :
    10 ^ rest.length ≤ value (d :: rest) := by
  rw [value_eq, List.reverse_cons, Nat.ofDigits_append, Nat.ofDigits_singleton, List.length_reverse]
  exact le_add_left (Nat.le_mul_of_pos_right _ (Nat.pos_of_ne_zero leading))

theorem scaled_lt {digits : List Nat} (small : ∀ d ∈ digits, d < 10) (e : ℤ) :
    (value digits * 10 ^ e : ℚ) < 10 ^ (digits.length + e) := by
  rw [zpow_add₀ (by norm_num), zpow_natCast]
  gcongr
  exact_mod_cast value_lt small

theorem pow_le_scaled {d : Nat} {rest : List Nat} (leading : d ≠ 0) (e : ℤ) :
    (10 : ℚ) ^ (rest.length + e) ≤ value (d :: rest) * 10 ^ e := by
  rw [zpow_add₀ (by norm_num), zpow_natCast]
  gcongr
  exact_mod_cast pow_le_value leading

namespace Magnitude

def value (m : Magnitude) : ℚ := Binary32.value m.digits * 10 ^ m.exponent

theorem isSome_bits?_iff {m : Magnitude} (small : ∀ d ∈ m.digits, d < 10) :
    m.bits?.isSome = true ↔ m.value < overflow := by
  have same : m.value = Binary32.value (m.digits.dropWhile (· == 0)) * 10 ^ m.exponent := by
    rw [value_dropWhile, value]
  have leading := List.head?_dropWhile_not (· == 0) m.digits
  have below : ∀ d ∈ m.digits.dropWhile (· == 0), d < 10 := fun d member =>
    small d ((List.dropWhile_sublist _).subset member)
  rw [same, bits?]
  generalize m.digits.dropWhile (· == 0) = significant at leading below
  generalize m.exponent = e
  cases significant with
  | nil => norm_num [Binary32.value, overflow]
  | cons d rest =>
    have nonzero : d ≠ 0 := by simpa using leading
    simp only [List.isEmpty_cons, Bool.false_eq_true, false_or]
    split
    next tiny =>
      have fits : (Binary32.value (d :: rest) * 10 ^ e : ℚ) < overflow := by
        calc (Binary32.value (d :: rest) * 10 ^ e : ℚ)
          _ < 10 ^ ((d :: rest).length + e) := scaled_lt below e
          _ ≤ 10 ^ (0 : ℤ) := zpow_le_zpow_right₀ (by norm_num) (by omega)
          _ ≤ overflow := by norm_num [overflow]
      simp [fits]
    next =>
      split
      next huge =>
        have beyond : overflow ≤ Binary32.value (d :: rest) * 10 ^ e := by
          calc overflow ≤ 10 ^ (40 : ℤ) := by norm_num [overflow]
            _ ≤ 10 ^ (rest.length + e) := by
              rw [List.length_cons] at huge
              exact zpow_le_zpow_right₀ (by norm_num) (by omega)
            _ ≤ Binary32.value (d :: rest) * 10 ^ e := pow_le_scaled nonzero e
        simp [not_lt.2 beyond]
      next =>
        split
        next positive =>
          obtain ⟨n, rfl⟩ := Int.eq_ofNat_of_zero_le positive
          rw [isSome_ofRatio?_iff one_pos]
          simp
        next negative =>
          obtain ⟨n, rfl⟩ : ∃ n : Nat, e = -n := ⟨(-e).toNat, by omega⟩
          have positive : 0 < Nat.pow 10 n := Nat.pow_pos (by norm_num)
          rw [neg_neg, Int.toNat_natCast, isSome_ofRatio?_iff positive]
          simp [div_eq_mul_inv]

end Magnitude

end Binary32

end LiteModel.Decimal
