import LiteModel.Decimal.Rounding

/-! Decimal texts read as 32-bit binary floating-point numbers. A text is an optional sign, digits
with an optional point among, before or after them, and an optional power of ten; the number read
is the nearest one, a tie going to the even significand. Texts whose number is not finite are
refused, the names of infinity and of undefined values with them. -/
namespace LiteModel.Decimal.Binary32

structure Magnitude where
  digits : List Nat
  exponent : Int
deriving Repr

def digit? (c : Char) : Option Nat :=
  if c.isDigit then some (c.toNat - '0'.toNat) else none

def takeDigits (text : List Char) : List Nat × List Char :=
  ((text.takeWhile Char.isDigit).filterMap digit?, text.dropWhile Char.isDigit)

def value (digits : List Nat) : Nat :=
  digits.foldl (fun n d => 10 * n + d) 0

def takeSign : List Char → Bool × List Char
  | '+' :: rest => (false, rest)
  | '-' :: rest => (true, rest)
  | text => (false, text)

def exponent? : List Char → Option Int
  | [] => some 0
  | c :: rest =>
    if c = 'e' ∨ c = 'E' then
      let (negative, rest) := takeSign rest
      match takeDigits rest with
      | (d :: digits, []) =>
        let n : Int := value (d :: digits)
        some (if negative then -n else n)
      | _ => none
    else none

def magnitude? (text : List Char) : Option Magnitude := do
  let (whole, rest) := takeDigits text
  let (fraction, rest) := match rest with
    | '.' :: rest => takeDigits rest
    | rest => ([], rest)
  if (whole ++ fraction).isEmpty then none
  else return ⟨whole ++ fraction, (← exponent? rest) - fraction.length⟩

/-- The power of two of the lowest bit of the number nearest to `num / den`: the significand has 24
bits unless the number is below the normal range. -/
def unitExponent (num den : Nat) : Int :=
  let bits : Int := (num.log2 : Int) - den.log2
  let reaches := if 0 ≤ bits then den * Nat.pow 2 bits.toNat ≤ num
    else den ≤ num * Nat.pow 2 (-bits).toNat
  max (-149) (if reaches then bits - 23 else bits - 24)

def ofRatio? (num den : Nat) : Option UInt32 :=
  if num = 0 then some 0 else
    let e := unitExponent num den
    let significand := if 0 ≤ e then roundToEven num (den * Nat.pow 2 e.toNat)
      else roundToEven (num * Nat.pow 2 (-e).toNat) den
    let bits := (e + 149).toNat * 0x800000 + significand
    if bits < 0x7f800000 then some (UInt32.ofNat bits) else none

/-- A number of more than 40 whole digits is beyond the finite range, and one with more than 50
zeros after the point rounds to zero, so neither needs its power of ten. -/
def Magnitude.bits? (m : Magnitude) : Option UInt32 :=
  let significant := m.digits.dropWhile (· == 0)
  let top : Int := significant.length + m.exponent
  if significant.isEmpty ∨ top < -50 then some 0
  else if 40 < top then none
  else if 0 ≤ m.exponent then ofRatio? (value significant * Nat.pow 10 m.exponent.toNat) 1
  else ofRatio? (value significant) (Nat.pow 10 (-m.exponent).toNat)

def ofText? (text : List Char) : Option UInt32 := do
  let (negative, rest) := takeSign text
  let bits ← (← magnitude? rest).bits?
  return if negative then bits ||| 0x80000000 else bits

end LiteModel.Decimal.Binary32
