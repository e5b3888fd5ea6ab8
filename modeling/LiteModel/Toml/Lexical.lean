/-! The small parts of TOML documents: blanks, comments, line ends, strings and keys. A reader takes
a text and gives what it read with the text after it, or nothing. -/
namespace LiteModel.Toml

abbrev Reader := StateT (List Char) Option

namespace Reader

def fail {α : Type} : Reader α := fun _ => none

def literal (expected : List Char) : Reader Unit := fun text =>
  if expected.isPrefixOf text then some ((), text.drop expected.length) else none

def anyOf (expected : List Char) : Reader Char := fun text =>
  match text with
  | c :: rest => if expected.contains c then some (c, rest) else none
  | [] => none

def optional {α : Type} (reader : Reader α) : Reader (Option α) := fun text =>
  match reader text with
  | some (a, rest) => some (some a, rest)
  | none => some (none, text)

end Reader

namespace Lexical

def isBlank (c : Char) : Bool := c == ' ' || c == '\t'

def blanks : Reader Unit := fun text => some ((), text.dropWhile isBlank)

def isPlain (c : Char) : Bool := c == '\t' || (0x20 ≤ c.toNat && c.toNat != 0x7f)

def lineEnd : Reader Unit := fun text =>
  match text with
  | '\n' :: rest => some ((), rest)
  | '\r' :: '\n' :: rest => some ((), rest)
  | _ => none

def lineEndOrEnd : Reader Unit := fun text =>
  match text with
  | [] => some ((), [])
  | text => lineEnd text

def comment : Reader Unit := fun text =>
  match text with
  | '#' :: rest => some ((), rest.dropWhile isPlain)
  | _ => none

def restOfLine : Reader Unit := do
  blanks
  let _ ← Reader.optional comment
  lineEndOrEnd

def gap (inComment : Bool) : List Char → List Char
  | [] => []
  | '\n' :: rest => gap false rest
  | '\r' :: '\n' :: rest => gap false rest
  | c :: rest =>
    if inComment then (if isPlain c then gap true rest else c :: rest)
    else if isBlank c then gap false rest
    else if c = '#' then gap true rest
    else c :: rest

def gaps : Reader Unit := fun text => some ((), gap false text)

def hexValue? (c : Char) : Option Nat :=
  if c.isDigit then some (c.toNat - '0'.toNat)
  else if 'a' ≤ c ∧ c ≤ 'f' then some (c.toNat - 'a'.toNat + 10)
  else if 'A' ≤ c ∧ c ≤ 'F' then some (c.toNat - 'A'.toNat + 10)
  else none

def codePoint? (digits : List Char) : Option Char := do
  let n := (← digits.mapM hexValue?).foldl (fun n d => 16 * n + d) 0
  if n < 0xd800 ∨ (0xdfff < n ∧ n < 0x110000) then some (Char.ofNat n) else none

def escaped? : Char → Option Char
  | 'b' => some '\x08'
  | 't' => some '\t'
  | 'n' => some '\n'
  | 'f' => some '\x0c'
  | 'r' => some '\r'
  | '"' => some '"'
  | '\\' => some '\\'
  | _ => none

def prepend (c : Char) (found : List Char × List Char) : List Char × List Char :=
  (c :: found.1, found.2)

def basic? : List Char → Option (List Char × List Char)
  | [] => none
  | '"' :: rest => some ([], rest)
  | '\\' :: 'u' :: a :: b :: c :: d :: rest => do
    return prepend (← codePoint? [a, b, c, d]) (← basic? rest)
  | '\\' :: 'U' :: a :: b :: c :: d :: e :: f :: g :: h :: rest => do
    return prepend (← codePoint? [a, b, c, d, e, f, g, h]) (← basic? rest)
  | '\\' :: c :: rest => do
    return prepend (← escaped? c) (← basic? rest)
  | c :: rest =>
    if isPlain c then return prepend c (← basic? rest) else none

def literal? : List Char → Option (List Char × List Char)
  | [] => none
  | '\x27' :: rest => some ([], rest)
  | c :: rest => if isPlain c then return prepend c (← literal? rest) else none

def closing (quote : Char) : List Char → List Char × List Char
  | a :: b :: rest =>
    if a = quote ∧ b = quote then ([a, b], rest)
    else if a = quote then ([a], b :: rest)
    else ([], a :: b :: rest)
  | [a] => if a = quote then ([a], []) else ([], [a])
  | [] => ([], [])

def startsLine : List Char → Bool
  | '\n' :: _ => true
  | '\r' :: '\n' :: _ => true
  | _ => false

/-- The text up to three closing double quotes. A backslash at the end of a line takes away the
blanks and line ends after it; `trimming` says that this is going on. -/
def multilineBasic? (trimming : Bool) : List Char → Option (List Char × List Char)
  | [] => none
  | '"' :: '"' :: '"' :: rest => some (closing '"' rest)
  | '\n' :: rest =>
    if trimming then multilineBasic? true rest
    else return prepend '\n' (← multilineBasic? false rest)
  | '\r' :: '\n' :: rest =>
    if trimming then multilineBasic? true rest
    else return prepend '\n' (← multilineBasic? false rest)
  | '\\' :: 'u' :: a :: b :: c :: d :: rest => do
    return prepend (← codePoint? [a, b, c, d]) (← multilineBasic? false rest)
  | '\\' :: 'U' :: a :: b :: c :: d :: e :: f :: g :: h :: rest => do
    return prepend (← codePoint? [a, b, c, d, e, f, g, h]) (← multilineBasic? false rest)
  | '\\' :: c :: rest =>
    if startsLine ((c :: rest).dropWhile isBlank) then multilineBasic? true (c :: rest)
    else do return prepend (← escaped? c) (← multilineBasic? false rest)
  | c :: rest =>
    if trimming && isBlank c then multilineBasic? true rest
    else if isPlain c then return prepend c (← multilineBasic? false rest)
    else none

def multilineLiteral? : List Char → Option (List Char × List Char)
  | [] => none
  | '\x27' :: '\x27' :: '\x27' :: rest => some (closing '\x27' rest)
  | '\n' :: rest => do return prepend '\n' (← multilineLiteral? rest)
  | '\r' :: '\n' :: rest => do return prepend '\n' (← multilineLiteral? rest)
  | c :: rest => if isPlain c then return prepend c (← multilineLiteral? rest) else none

def dropLineEnd : List Char → List Char
  | '\n' :: rest => rest
  | '\r' :: '\n' :: rest => rest
  | text => text

def string : Reader (List Char) := fun text =>
  match text with
  | '"' :: '"' :: '"' :: rest => multilineBasic? false (dropLineEnd rest)
  | '\x27' :: '\x27' :: '\x27' :: rest => multilineLiteral? (dropLineEnd rest)
  | '"' :: rest => basic? rest
  | '\x27' :: rest => literal? rest
  | _ => none

def isBare (c : Char) : Bool :=
  ('a' ≤ c && c ≤ 'z') || ('A' ≤ c && c ≤ 'Z') || c.isDigit || c == '_' || c == '-'

def simpleKey : Reader (List Char) := fun text =>
  match text with
  | '"' :: rest => basic? rest
  | '\x27' :: rest => literal? rest
  | text =>
    match text.takeWhile isBare with
    | [] => none
    | name => some (name, text.dropWhile isBare)

/-- The parts of keys and the levels of values may be this many, less one. -/
def depthLimit : Nat := 80

def keyParts : (fuel : Nat) → Reader (List String)
  | 0 => Reader.fail
  | fuel + 1 => do
    blanks
    let part ← simpleKey
    blanks
    match ← Reader.optional (Reader.literal ['.']) with
    | some _ => return String.ofList part :: (← keyParts fuel)
    | none => return [String.ofList part]

def key : Reader (List String) := keyParts (depthLimit - 1)

end Lexical

end LiteModel.Toml
