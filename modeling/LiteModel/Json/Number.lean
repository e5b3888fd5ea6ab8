import LiteModel.Decimal.Rounding

/-! Numbers of JSON texts. A number written with digits alone is an integer as long as it fits into
64 bits; every other number counts as a fraction, of which only the size matters: one beyond the
range of 64-bit binary floating point is refused where it is read. -/
namespace LiteModel.Json

inductive Number where
  | natural (n : UInt64)
  | negative (n : Nat)
  | fraction
  | outOfRange
deriving DecidableEq, Repr, Inhabited

namespace Number

def round53 (n : Nat) : Nat :=
  let surplus := n.log2 - 52
  let unit := Nat.pow 2 surplus
  Decimal.roundToEven n unit * unit

/-- Whether the product of the significand and the power of ten, each rounded to 53 bits and the
product again, leaves the range. -/
def exceedsRange (significand : Nat) (exponent : Int) : Bool :=
  if significand = 0 ∨ exponent < 0 then false
  else if 308 < exponent then true
  else Nat.pow 2 1024 ≤
    round53 (round53 significand * round53 (Nat.pow 10 exponent.toNat))

/-- Append digits to a significand as long as it stays below `2 ^ 64`; also tells how many were
appended. -/
def appendDigits (significand : Nat) : List Nat → Nat × Nat
  | [] => (significand, 0)
  | d :: rest =>
    let next := significand * 10 + d
    if next < UInt64.size then
      let (result, count) := appendDigits next rest
      (result, count + 1)
    else (significand, 0)

def ofDigits (isNegative : Bool) (whole : List Nat) (fraction? : Option (List Nat))
    (exponent? : Option Int) : Number :=
  let (wholePart, used) := appendDigits 0 whole
  let dropped := whole.length - used
  match fraction?, exponent?, dropped, isNegative with
  | none, none, 0, false => natural (UInt64.ofNat wholePart)
  | none, none, 0, true =>
    if wholePart = 0 ∨ 0x8000000000000000 < wholePart then fraction else negative wholePart
  | _, _, _, _ =>
    let (significand, decimals) := appendDigits wholePart (fraction?.getD [])
    if exceedsRange significand (exponent?.getD 0 + dropped - decimals) then outOfRange
    else fraction

end Number

end LiteModel.Json
