import LiteModel.Toml.Lexical

/-! Numbers and times of TOML documents. What they denote does not matter here beyond being in
range: an integer has to fit into 64 bits with its sign, a number with a fraction or a power must
not be beyond the positive range of 64-bit binary floating point, and a date has to be a day. -/
namespace LiteModel.Toml.Scalar
open Lexical

def underscored (isDigit : Char → Bool) : List Char → Option (List Char × List Char)
  | [] => none
  | c :: rest => if isDigit c then some (prepend c (go rest)) else none
where
  go : List Char → List Char × List Char
    | '_' :: c :: rest => if isDigit c then prepend c (go rest) else ([], '_' :: c :: rest)
    | c :: rest => if isDigit c then prepend c (go rest) else ([], c :: rest)
    | [] => ([], [])

def digits : Reader (List Char) := underscored Char.isDigit

def valueOf (base : Nat) (digits : List Char) : Nat :=
  (digits.filterMap hexValue?).foldl (fun n d => base * n + d) 0

def sign : Reader Bool := do
  match ← Reader.optional (Reader.anyOf ['+', '-']) with
  | some c => return c == '-'
  | none => return false

def decimal : Reader (List Char) := fun text =>
  match text with
  | '0' :: rest => some (['0'], rest)
  | text => digits text

def require (holds : Bool) : Reader Unit := if holds then pure () else Reader.fail

def integerEnd : Nat := 0x8000000000000000

def based (mark : List Char) (base : Nat) (isDigit : Char → Bool) : Reader Unit := do
  Reader.literal mark
  let ds ← (underscored isDigit : Reader (List Char))
  require (valueOf base ds < integerEnd)

def integer : Reader Unit :=
  based ['0', 'x'] 16 (fun c => (hexValue? c).isSome) <|>
  based ['0', 'o'] 8 (fun c => '0' ≤ c && c ≤ '7') <|>
  based ['0', 'b'] 2 (fun c => c == '0' || c == '1') <|> do
    let isNegative ← sign
    let n := valueOf 10 (← decimal)
    require (n < integerEnd || (isNegative && n == integerEnd))

def powerOfTen : Reader Int := do
  let _ ← Reader.anyOf ['e', 'E']
  let isNegative ← sign
  let n : Int := valueOf 10 (← digits)
  return if isNegative then -n else n

/-- The least number that is nearer to `2 ^ 1024` than to any number below the end of the range. -/
def rangeEnd : Nat := Nat.pow 2 1024 - Nat.pow 2 970

def exceedsRange (digits : List Char) (exponent : Int) : Bool :=
  let significant := digits.dropWhile (· == '0')
  let top : Int := significant.length + exponent
  if significant.isEmpty ∨ top < 300 then false
  else if 400 < top then true
  else
    let n := valueOf 10 significant
    if 0 ≤ exponent then rangeEnd ≤ n * Nat.pow 10 exponent.toNat
    else rangeEnd * Nat.pow 10 (-exponent).toNat ≤ n

def named : Reader Unit := do
  let _ ← sign
  Reader.literal ['i', 'n', 'f'] <|> Reader.literal ['n', 'a', 'n']

def fractional : Reader Unit := do
  let isNegative ← sign
  let whole ← decimal
  match ← Reader.optional (Reader.literal ['.']) with
  | some _ =>
    let fraction ← digits
    let power := (← Reader.optional powerOfTen).getD 0
    require (isNegative || !exceedsRange (whole ++ fraction) (power - fraction.length))
  | none =>
    let power ← powerOfTen
    require (isNegative || !exceedsRange whole power)

def field (count low high : Nat) : Reader Nat := fun text =>
  let ds := text.take count
  let n := valueOf 10 ds
  if ds.length = count && ds.all Char.isDigit && low ≤ n && n ≤ high then
    some (n, text.drop count)
  else none

def daysIn (year month : Nat) : Nat :=
  let isLeap := year % 4 == 0 && (year % 100 != 0 || year % 400 == 0)
  match month with
  | 2 => if isLeap then 29 else 28
  | 4 | 6 | 9 | 11 => 30
  | _ => 31

def date : Reader Unit := do
  let year ← field 4 0 9999
  Reader.literal ['-']
  let month ← field 2 1 12
  Reader.literal ['-']
  let _ ← field 2 1 (daysIn year month)

def secondFraction : Reader Unit := do
  Reader.literal ['.']
  let isDigits : Reader Unit := fun text =>
    match text.takeWhile Char.isDigit with
    | [] => none
    | _ => some ((), text.dropWhile Char.isDigit)
  isDigits

def time : Reader Unit := do
  let _ ← field 2 0 23
  Reader.literal [':']
  let _ ← field 2 0 59
  Reader.literal [':']
  let _ ← field 2 0 60
  let _ ← Reader.optional secondFraction

def offset : Reader Unit :=
  (do let _ ← Reader.anyOf ['Z', 'z']) <|> do
    let _ ← Reader.anyOf ['+', '-']
    let _ ← field 2 0 23
    Reader.literal [':']
    let _ ← field 2 0 59

def dateTime : Reader Unit :=
  (do
    date
    let _ ← Reader.optional do
      let _ ← Reader.anyOf ['T', 't', ' ']
      time
      let _ ← Reader.optional offset) <|>
  time

def numeric : Reader Unit := dateTime <|> fractional <|> named <|> integer

end LiteModel.Toml.Scalar
