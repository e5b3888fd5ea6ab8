import LiteModel.Json.Document
import LiteModel.Text.Quoted

/-! Values of known form read from a document. The parts are gone through in the order of the text
and the first fault counts: a break in the text is a fault where it is met, and a part of another
form than expected is one as soon as its kind is known. -/
namespace LiteModel.Json

inductive Found where
  | null
  | bool (b : Bool)
  | integer (n : Int)
  | fraction
  | string (s : String)
  | sequence
  | map
deriving DecidableEq, Repr

def Found.render : Found → String
  | null => "null"
  | bool true => "boolean `true`"
  | bool false => "boolean `false`"
  | integer n => "integer `" ++ n.repr ++ "`"
  | fraction => "floating point"
  | string s => "string " ++ Text.quoted s
  | sequence => "sequence"
  | map => "map"

structure Record where
  name : String
  size : Nat
deriving DecidableEq, Repr

def Record.expected (r : Record) : String := "struct " ++ r.name

inductive Fault where
  | invalidType (found : Found) (expected : String)
  | invalidValue (found : Found) (expected : String)
  | invalidLength (length : Nat) (expected : Record)
  | missingField (name : String)
  | duplicateField (name : String)
  | unknownVariant (found : String) (expected : List String)
deriving DecidableEq, Repr

def Fault.message : Fault → String
  | invalidType found expected => "invalid type: " ++ found.render ++ ", expected " ++ expected
  | invalidValue found expected => "invalid value: " ++ found.render ++ ", expected " ++ expected
  | invalidLength length expected =>
    "invalid length " ++ length.repr ++ ", expected " ++ expected.expected ++ " with " ++
      expected.size.repr ++ " elements"
  | missingField name => "missing field `" ++ name ++ "`"
  | duplicateField name => "duplicate field `" ++ name ++ "`"
  | unknownVariant found expected =>
    "unknown variant `" ++ found ++ "`, expected " ++
      " or ".intercalate (expected.map fun e => "`" ++ e ++ "`")

inductive DecodeError where
  | malformed
  | fault (fault : Fault)
deriving DecidableEq, Repr

def DecodeError.message : DecodeError → String
  | malformed => "the text is not JSON"
  | .fault f => f.message

abbrev Decoded := Except DecodeError

namespace Tree

def mismatch {α : Type} (expected : String) : Tree → Decoded α
  | .null => .error (.fault (.invalidType .null expected))
  | .bool b => .error (.fault (.invalidType (.bool b) expected))
  | .number (.natural n) => .error (.fault (.invalidType (.integer n.toNat) expected))
  | .number (.negative n) => .error (.fault (.invalidType (.integer (-n)) expected))
  | .number .fraction => .error (.fault (.invalidType .fraction expected))
  | .number .outOfRange => .error .malformed
  | .string (some s) => .error (.fault (.invalidType (.string s) expected))
  | .string none => .error .malformed
  | .array .. => .error (.fault (.invalidType .sequence expected))
  | .object .. => .error (.fault (.invalidType .map expected))
  | .missing => .error .malformed

def ended {α : Type} (ending : Ending) (a : α) : Decoded α :=
  match ending with
  | .closed => .ok a
  | .broken => .error .malformed

def readString : Tree → Decoded String
  | .string (some s) => .ok s
  | t => t.mismatch "a string"

def readOptionalString : Tree → Decoded (Option String)
  | .null => .ok none
  | t => some <$> t.readString

def readSize : Tree → Decoded UInt64
  | .number (.natural n) => .ok n
  | .number (.negative n) => .error (.fault (.invalidValue (.integer (-n)) "usize"))
  | t => t.mismatch "usize"

def readList {α : Type} (read : Tree → Decoded α) : Tree → Decoded (List α)
  | .array items ending => do ended ending (← items.mapM read)
  | t => t.mismatch "a sequence"

def readKey : Option String → Decoded String
  | some k => .ok k
  | none => .error .malformed

def readPairs : Tree → Decoded (List (String × String))
  | .object members ending => do
    ended ending (← members.mapM fun (k, t) => return (← readKey k, ← t.readString))
  | t => t.mismatch "a map"

def readVariant (names : List String) : Tree → Decoded String
  | .string (some s) => known s
  | .object ((k, t) :: rest) ending => do
    let name ← known (← readKey k)
    match t with
    | .null => if rest.isEmpty then ended ending name else .error .malformed
    | t => t.mismatch "unit"
  | _ => .error .malformed
where
  known (s : String) : Decoded String :=
    if names.contains s then .ok s else .error (.fault (.unknownVariant s names))

def fill {α : Type} (name : String) (read : Tree → Decoded α) (before : Option α) (t : Tree) :
    Decoded (Option α) :=
  if before.isSome then .error (.fault (.duplicateField name)) else some <$> read t

def require {α : Type} (name : String) : Option α → Decoded α
  | some a => .ok a
  | none => .error (.fault (.missingField name))

end Tree

structure Elements where
  items : List Tree
  ending : Ending
deriving Repr

namespace Elements

abbrev Reader := StateT Elements Decoded

def next? {α : Type} (read : Tree → Decoded α) : Reader (Option α) := do
  let e ← get
  match e.items with
  | t :: rest =>
    let a ← read t
    set { e with items := rest }
    return some a
  | [] => Tree.ended e.ending none

def required {α : Type} (record : Record) (position : Nat) (read : Tree → Decoded α) :
    Reader α := do
  match ← next? read with
  | some a => return a
  | none => throw (.fault (.invalidLength position record))

def optional {α : Type} (default : α) (read : Tree → Decoded α) : Reader α := do
  return (← next? read).getD default

def decode {α : Type} (reader : Reader α) (items : List Tree) (ending : Ending) : Decoded α := do
  let (a, e) ← reader.run ⟨items, ending⟩
  if e.items.isEmpty then Tree.ended e.ending a else throw .malformed

end Elements

def decode {α : Type} (read : Tree → Decoded α) (text : String) : Decoded α := do
  let d := Document.ofText text
  let a ← read d.tree
  if d.complete then return a else throw .malformed

end LiteModel.Json
