/-! Quotients rounded to the nearest whole number, a half to the even neighbour, and their use for
sizes shown with one decimal place. -/
namespace LiteModel.Decimal

def roundToEven (num den : Nat) : Nat :=
  let q := num / den
  let twice := 2 * (num % den)
  if twice < den then q else if den < twice then q + 1 else if q % 2 = 0 then q else q + 1

def kilobytes (bytes : Nat) : String :=
  let tenths := roundToEven (bytes * 10) 1024
  (tenths / 10).repr ++ "." ++ (tenths % 10).repr

end LiteModel.Decimal
