import LiteModel.Toml.Scalar
import LiteModel.Toml.Table

/-! TOML documents: lines with a key and its value, headers of tables and of arrays of tables. A
document is read whole or not at all; what counts of it is the table of its top level. -/
namespace LiteModel.Toml
open Lexical

namespace Document

def arrayItems (value : Reader Value) : (fuel : Nat) → Reader Unit
  | 0 => Reader.fail
  | fuel + 1 => do
    gaps
    match ← Reader.optional (Reader.literal [']']) with
    | some _ => return
    | none =>
      let _ ← value
      gaps
      if (← Reader.anyOf [',', ']']) == ',' then arrayItems value fuel

def keyValue (value : Reader Value) : Reader (List String × Value) := do
  let k ← key
  Reader.literal ['=']
  blanks
  return (k, ← value)

def inlineMembers (value : Reader Value) (entries : Entries) : (fuel : Nat) → Reader Unit
  | 0 => Reader.fail
  | fuel + 1 => do
    let (k, v) ← keyValue value
    match entries.insert? k v with
    | none => Reader.fail
    | some entries =>
      blanks
      if (← Reader.anyOf [',', '\x7d']) == ',' then inlineMembers value entries fuel

def inlineTable (value : Reader Value) : Reader Unit := do
  Reader.literal ['\x7b']
  blanks
  match ← Reader.optional (Reader.literal ['\x7d']) with
  | some _ => return
  | none => inlineMembers value [] (← get).length

def value : (depth : Nat) → Reader Value
  | 0 => simple
  | depth + 1 => fun text =>
    match text with
    | '[' :: rest => (do arrayItems (value depth) rest.length; return .other : Reader Value) rest
    | '\x7b' :: _ => (do inlineTable (value depth); return .other : Reader Value) text
    | text => simple text
where
  simple : Reader Value := fun text =>
    match text with
    | '"' :: _ => (do return .text (String.ofList (← string)) : Reader Value) text
    | '\x27' :: _ => (do return .text (String.ofList (← string)) : Reader Value) text
    | 't' :: _ => (do Reader.literal ['t', 'r', 'u', 'e']; return .bool true : Reader Value) text
    | 'f' :: _ =>
      (do Reader.literal ['f', 'a', 'l', 's', 'e']; return .bool false : Reader Value) text
    | text => (do Scalar.numeric; return .other : Reader Value) text

structure Progress where
  root : Entries := []
  path : List String := []
  isArray : Bool := false
  current : Entries := []
deriving Repr, Inhabited

namespace Progress

def settle? (p : Progress) : Option Entries :=
  match p.path.getLast? with
  | none => some p.current
  | some name => do
    let node : Node := if p.isArray then .tables p.current else .table .header p.current
    let changed ← Entries.change? .passage
      (fun t => some ⟨t.origin, t.entries.set name node⟩) ⟨.header, p.root⟩ p.path.dropLast
    return changed.entries

/-- Start a table. One that so far only stood on the way of headers keeps what it has. -/
def startTable? (p : Progress) (path : List String) : Option Progress := do
  let root ← p.settle?
  let name ← path.getLast?
  let parent ← Entries.change? .passage some ⟨.header, root⟩ path.dropLast
  let found ← find? parent.entries path
  match found with
  | none => return ⟨parent.entries, path, false, []⟩
  | some (.table .passage entries) =>
    let removed ← Entries.change? .passage
      (fun t => some ⟨t.origin, t.entries.remove name⟩) parent path.dropLast
    return ⟨removed.entries, path, false, entries⟩
  | some _ => none
where
  find? (entries : Entries) : List String → Option (Option Node)
    | [] => none
    | [name] => some (entries.lookup name)
    | name :: path =>
      match entries.lookup name with
      | some (.table _ inner) => find? inner path
      | some (.tables last) => find? last path
      | _ => none

def startArrayTable? (p : Progress) (path : List String) : Option Progress := do
  let root ← p.settle?
  let name ← path.getLast?
  let changed ← Entries.change? .passage (fun t =>
    match t.entries.lookup name with
    | none => some t
    | some (.tables _) => some t
    | some _ => none) ⟨.header, root⟩ path.dropLast
  return ⟨changed.entries, path, true, []⟩

def add? (p : Progress) (key : List String) (v : Value) : Option Progress := do
  return { p with current := ← p.current.insert? key v }

end Progress

def lift {α : Type} : Option α → Reader α
  | some a => pure a
  | none => Reader.fail

def expression (p : Progress) : Reader Progress := fun text =>
  match text with
  | '#' :: _ => (do comment; lineEndOrEnd; return p : Reader Progress) text
  | '[' :: '[' :: rest => (do
      let path ← key
      Reader.literal [']', ']']
      restOfLine
      lift (p.startArrayTable? path) : Reader Progress) rest
  | '[' :: rest => (do
      let path ← key
      Reader.literal [']']
      restOfLine
      lift (p.startTable? path) : Reader Progress) rest
  | text => (do
      let (k, v) ← keyValue (value (depthLimit - 1))
      restOfLine
      lift (p.add? k v) : Reader Progress) text

def expressions : (fuel : Nat) → Progress → List Char → Option Progress
  | 0, p, text => if text.isEmpty then some p else none
  | fuel + 1, p, text =>
    match text.dropWhile isBlank with
    | [] => some p
    | '\n' :: rest => expressions fuel p rest
    | '\r' :: '\n' :: rest => expressions fuel p rest
    | text => do
      let (p, rest) ← expression p text
      expressions fuel p rest

def dropMark : List Char → List Char
  | '\ufeff' :: rest => rest
  | text => text

def parse? (text : List Char) : Option Entries := do
  let text := dropMark text
  (← expressions text.length {} text).settle?

end Document

end LiteModel.Toml
