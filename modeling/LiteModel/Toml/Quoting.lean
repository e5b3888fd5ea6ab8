/-! Texts as TOML strings. The form depends on what the text holds, and the first that fits is
taken: between single quotes nothing is escaped, between three of a kind lines may break, and
between double quotes all that cannot stand for itself is escaped. -/
namespace LiteModel.Toml.Quoting

def longestRun (c : Char) (text : List Char) : Nat :=
  let (longest, _) := text.foldl
    (fun (longest, current) x =>
      let current := if x = c then current + 1 else 0
      (max longest current, current)) (0, 0)
  longest

def isControl (c : Char) : Bool :=
  (c.toNat < 0x20 && c != '\t' && c != '\n') || c.toNat == 0x7f

inductive Style where
  | basic
  | literal
  | multilineBasic
  | multilineLiteral
deriving DecidableEq, Repr

def styleOf (text : List Char) : Style :=
  let hasControl := text.any isControl
  let hasBackslash := text.contains '\\'
  let hasNewline := text.contains '\n'
  let doubles := longestRun '"' text
  let singles := longestRun '\x27' text
  if !hasControl && !hasBackslash && doubles == 0 && !hasNewline then .basic
  else if !hasControl && singles == 0 && !hasNewline then .literal
  else if !hasControl && !hasBackslash && doubles ≤ 2 then .multilineBasic
  else if !hasControl && singles ≤ 2 then .multilineLiteral
  else if hasNewline then .multilineBasic
  else .basic

def hexDigit (n : Nat) : Char :=
  Char.ofNat (if n < 10 then '0'.toNat + n else 'A'.toNat + (n - 10))

/-- The escape of a character that cannot stand for itself between double quotes, quotes and
newlines apart. -/
def escape? (c : Char) : Option (List Char) :=
  match c with
  | '\x08' => some ['\\', 'b']
  | '\t' => some ['\\', 't']
  | '\x0c' => some ['\\', 'f']
  | '\r' => some ['\\', 'r']
  | '\\' => some ['\\', '\\']
  | c =>
    if isControl c then
      some ['\\', 'u', '0', '0', hexDigit (c.toNat / 16), hexDigit (c.toNat % 16)]
    else none

def basicBody (text : List Char) : List Char :=
  text.flatMap fun c =>
    match c with
    | '"' => ['\\', '"']
    | '\n' => ['\\', 'n']
    | c => (escape? c).getD [c]

/-- After two quotes in a row that stand for themselves, a third is escaped. -/
def multilineBody (quotes : Nat) : List Char → List Char
  | [] => []
  | '"' :: rest =>
    if quotes = 2 then '\\' :: '"' :: multilineBody 0 rest
    else '"' :: multilineBody (quotes + 1) rest
  | c :: rest => (escape? c).getD [c] ++ multilineBody 0 rest

/-- A newline after the opening quotes is not part of the text; it is there when the text has
newlines of its own. -/
def opening (text : List Char) : List Char := if text.contains '\n' then ['\n'] else []

def string (text : List Char) : List Char :=
  match styleOf text with
  | .basic => '"' :: basicBody text ++ ['"']
  | .literal => '\x27' :: text ++ ['\x27']
  | .multilineBasic =>
    ['"', '"', '"'] ++ opening text ++ multilineBody 0 text ++ ['"', '"', '"']
  | .multilineLiteral =>
    ['\x27', '\x27', '\x27'] ++ opening text ++ text ++ ['\x27', '\x27', '\x27']

end LiteModel.Toml.Quoting
