import LiteModel.Json.Token

/-! JSON documents as trees that may break off. The tokens are taken in one at a time; at the first
one that cannot stand where it is, every array and object that is open there ends as `broken`. What
was read before the break is in the tree, in the order of the text. -/
namespace LiteModel.Json

inductive Ending where
  | closed
  | broken
deriving DecidableEq, Repr, Inhabited

inductive Tree where
  | null
  | bool (b : Bool)
  | number (n : Number)
  | string (value : Option String)
  | array (items : List Tree) (ending : Ending)
  | object (members : List (Option String × Tree)) (ending : Ending)
  | missing
deriving Repr, Inhabited

/-- An array or an object that is still open, its parts in reverse order. An object may have a key
that waits for its value. -/
inductive Frame where
  | array (items : List Tree)
  | object (members : List (Option String × Tree)) (key : Option (Option String))
deriving Repr, Inhabited

inductive Place where
  | value
  | firstItem
  | firstKey
  | key
  | colon
  | after
deriving DecidableEq, Repr, Inhabited

structure Reading where
  frames : List Frame := []
  place : Place := .value
  result : Option Tree := none
deriving Repr, Inhabited

structure Document where
  tree : Tree
  complete : Bool
deriving Repr, Inhabited

namespace Reading

def finish (r : Reading) (t : Tree) : Reading :=
  match r.frames with
  | [] => ⟨[], .after, some t⟩
  | .array items :: frames => ⟨.array (t :: items) :: frames, .after, none⟩
  | .object members key :: frames =>
    ⟨.object ((key.getD none, t) :: members) none :: frames, .after, none⟩

def value? (r : Reading) : Token → Option Reading
  | .null => some (r.finish .null)
  | .bool b => some (r.finish (.bool b))
  | .number n => some (r.finish (.number n))
  | .string s => some (r.finish (.string s))
  | .openArray => some ⟨.array [] :: r.frames, .firstItem, none⟩
  | .openObject => some ⟨.object [] none :: r.frames, .firstKey, none⟩
  | _ => none

def close? (r : Reading) : Token → Option Reading
  | .closeArray =>
    match r.frames with
    | .array items :: frames =>
      some (finish ⟨frames, .after, none⟩ (.array items.reverse .closed))
    | _ => none
  | .closeObject =>
    match r.frames with
    | .object members none :: frames =>
      some (finish ⟨frames, .after, none⟩ (.object members.reverse .closed))
    | _ => none
  | _ => none

def key? (r : Reading) : Token → Option Reading
  | .string s =>
    match r.frames with
    | .object members _ :: frames => some ⟨.object members (some s) :: frames, .colon, none⟩
    | _ => none
  | _ => none

def comma? (r : Reading) : Option Reading :=
  match r.frames with
  | .array _ :: _ => some { r with place := .value }
  | .object .. :: _ => some { r with place := .key }
  | [] => none

def step? (r : Reading) (t : Token) : Option Reading :=
  match r.place with
  | .value => r.value? t
  | .firstItem => (r.close? t).orElse fun _ => r.value? t
  | .firstKey => (r.close? t).orElse fun _ => r.key? t
  | .key => r.key? t
  | .colon => if t = .colon then some { r with place := .value } else none
  | .after => if t = .comma then r.comma? else r.close? t

def breakOff : List Frame → Option Tree → Tree
  | [], inner => inner.getD .missing
  | .array items :: frames, inner =>
    breakOff frames (some (.array (inner.toList ++ items).reverse .broken))
  | .object members key :: frames, inner =>
    let pending := match key, inner with
      | some k, inner => [(k, inner.getD .missing)]
      | none, _ => []
    breakOff frames (some (.object (pending ++ members).reverse .broken))

def run (r : Reading) : List Token → Document
  | [] =>
    match r.result with
    | some t => ⟨t, true⟩
    | none => ⟨breakOff r.frames none, false⟩
  | t :: rest =>
    match r.step? t with
    | some next => next.run rest
    | none => ⟨breakOff r.frames r.result, false⟩

end Reading

def Document.ofTokens (tokens : List Token) : Document := Reading.run {} tokens

def Document.ofText (text : String) : Document := .ofTokens (Token.scan text)

end LiteModel.Json
