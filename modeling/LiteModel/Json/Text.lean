/-! Compact JSON texts. A string escapes quotes, backslashes and control characters alone. -/
namespace LiteModel.Json.Text

def hexDigit (n : Nat) : Char := Char.ofNat (if n < 10 then '0'.toNat + n else 'a'.toNat + (n - 10))

def character (c : Char) : List Char :=
  match c with
  | '"' => ['\\', '"']
  | '\\' => ['\\', '\\']
  | '\x08' => ['\\', 'b']
  | '\x0c' => ['\\', 'f']
  | '\n' => ['\\', 'n']
  | '\r' => ['\\', 'r']
  | '\t' => ['\\', 't']
  | c =>
    if c.toNat < 0x20 then
      ['\\', 'u', '0', '0', hexDigit (c.toNat / 16), hexDigit (c.toNat % 16)]
    else [c]

def string (s : String) : List Char := '"' :: s.toList.flatMap character ++ ['"']

def digits (n : Nat) : List Char :=
  if n < 10 then [hexDigit n] else digits (n / 10) ++ [hexDigit (n % 10)]

def commaSeparated : List (List Char) → List Char
  | [] => []
  | [item] => item
  | item :: rest => item ++ ',' :: commaSeparated rest

def array (items : List (List Char)) : List Char := '[' :: commaSeparated items ++ [']']

def object (members : List (String × List Char)) : List Char :=
  '\x7b' :: commaSeparated (members.map fun (k, v) => string k ++ ':' :: v) ++ ['\x7d']

def null : List Char := ['n', 'u', 'l', 'l']

def strings (items : List String) : List Char := array (items.map string)

end LiteModel.Json.Text
