import LiteModel.Json.Number

/-! Tokens of JSON texts. Scanning stops at the first character that starts no token, which becomes
the token `bad`, so a text that breaks off yields the tokens in front of the break. A string whose
escapes leave half of a surrogate pair alone has no value, yet is a token. -/
namespace LiteModel.Json

inductive Token where
  | openObject
  | closeObject
  | openArray
  | closeArray
  | colon
  | comma
  | null
  | bool (b : Bool)
  | number (n : Number)
  | string (value : Option String)
  | bad
deriving DecidableEq, Repr, Inhabited

namespace Token

def isBlank (c : Char) : Bool := c == ' ' || c == '\n' || c == '\t' || c == '\r'

def digitValues (digits : List Char) : List Nat := digits.map fun c => c.toNat - '0'.toNat

def takeDigits (text : List Char) : List Nat × List Char :=
  (digitValues (text.takeWhile Char.isDigit), text.dropWhile Char.isDigit)

def valueOf (digits : List Nat) : Nat := digits.foldl (fun n d => 10 * n + d) 0

def takeSign : List Char → Bool × List Char
  | '+' :: rest => (false, rest)
  | '-' :: rest => (true, rest)
  | text => (false, text)

def exponent? (text : List Char) : Option (Int × List Char) :=
  let (isNegative, rest) := takeSign text
  match takeDigits rest with
  | ([], _) => none
  | (digits, rest) =>
    let n : Int := valueOf digits
    some (if isNegative then -n else n, rest)

def fraction? (text : List Char) : Option (List Nat × List Char) :=
  match takeDigits text with
  | ([], _) => none
  | found => some found

def number? (isNegative : Bool) (text : List Char) : Option (Number × List Char) :=
  match takeDigits text with
  | ([], _) => none
  | (0 :: _ :: _, _) => none
  | (whole, rest) => do
    let (fraction, rest) ← match rest with
      | '.' :: rest => (fun (f, r) => (some f, r)) <$> fraction? rest
      | rest => some (none, rest)
    let (exponent, rest) ← match rest with
      | 'e' :: rest => (fun (e, r) => (some e, r)) <$> exponent? rest
      | 'E' :: rest => (fun (e, r) => (some e, r)) <$> exponent? rest
      | rest => some (none, rest)
    return (.ofDigits isNegative whole fraction exponent, rest)

def hexValue? (c : Char) : Option Nat :=
  if c.isDigit then some (c.toNat - '0'.toNat)
  else if 'a' ≤ c ∧ c ≤ 'f' then some (c.toNat - 'a'.toNat + 10)
  else if 'A' ≤ c ∧ c ≤ 'F' then some (c.toNat - 'A'.toNat + 10)
  else none

def hex4? (a b c d : Char) : Option Nat := do
  return (((← hexValue? a) * 16 + (← hexValue? b)) * 16 + (← hexValue? c)) * 16 + (← hexValue? d)

def escaped? : Char → Option Nat
  | '"' => some 0x22
  | '\\' => some 0x5c
  | '/' => some 0x2f
  | 'b' => some 0x8
  | 'f' => some 0xc
  | 'n' => some 0xa
  | 'r' => some 0xd
  | 't' => some 0x9
  | _ => none

/-- The code units up to the closing quote, and the text after it. A character counts as one unit
and an escape as one; a control character is refused. -/
def units? : List Char → Option (List Nat × List Char)
  | [] => none
  | '"' :: rest => some ([], rest)
  | '\\' :: 'u' :: a :: b :: c :: d :: rest => do
    let unit ← hex4? a b c d
    let (units, rest) ← units? rest
    return (unit :: units, rest)
  | '\\' :: c :: rest => do
    let unit ← escaped? c
    let (units, rest) ← units? rest
    return (unit :: units, rest)
  | c :: rest =>
    if c.toNat < 0x20 ∨ c = '\\' then none
    else do
      let (units, rest) ← units? rest
      return (c.toNat :: units, rest)

def characters? : List Nat → Option (List Char)
  | [] => some []
  | high :: rest =>
    if 0xd800 ≤ high ∧ high < 0xdc00 then
      match rest with
      | [] => none
      | low :: rest =>
        if 0xdc00 ≤ low ∧ low < 0xe000 then do
          return Char.ofNat (0x10000 + (high - 0xd800) * 0x400 + (low - 0xdc00)) ::
            (← characters? rest)
        else none
    else if 0xdc00 ≤ high ∧ high < 0xe000 then none
    else do return Char.ofNat high :: (← characters? rest)

def next (text : List Char) : Token × List Char :=
  match text with
  | '\x7b' :: rest => (openObject, rest)
  | '\x7d' :: rest => (closeObject, rest)
  | '[' :: rest => (openArray, rest)
  | ']' :: rest => (closeArray, rest)
  | ':' :: rest => (colon, rest)
  | ',' :: rest => (comma, rest)
  | 'n' :: 'u' :: 'l' :: 'l' :: rest => (null, rest)
  | 't' :: 'r' :: 'u' :: 'e' :: rest => (bool true, rest)
  | 'f' :: 'a' :: 'l' :: 's' :: 'e' :: rest => (bool false, rest)
  | '"' :: rest =>
    match units? rest with
    | some (units, rest) => (string ((characters? units).map String.ofList), rest)
    | none => (bad, [])
  | '-' :: rest =>
    match number? true rest with
    | some (n, rest) => (number n, rest)
    | none => (bad, [])
  | text =>
    match number? false text with
    | some (n, rest) => (number n, rest)
    | none => (bad, [])

/-- The tokens of a text. Every token takes up a character at least, so the length of the text is
fuel enough; `scan` puts it in. -/
def scanFor : (fuel : Nat) → List Char → List Token
  | 0, _ => []
  | fuel + 1, text =>
    match text.dropWhile isBlank with
    | [] => []
    | c :: rest =>
      let (token, rest) := next (c :: rest)
      token :: scanFor fuel rest

def scan (text : String) : List Token := scanFor text.toList.length text.toList

end Token

end LiteModel.Json
