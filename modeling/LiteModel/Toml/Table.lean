/-! Tables of TOML documents as they grow. A table is defined once: by its header, by the dotted
keys that lead into it, or inline. A table that only stands on the way of a header may still get a
header of its own; one made by dotted keys can grow by dotted keys alone. -/
namespace LiteModel.Toml

inductive Value where
  | text (s : String)
  | bool (b : Bool)
  | other
deriving DecidableEq, Repr, Inhabited

inductive Origin where
  | header
  | passage
  | dotted
deriving DecidableEq, Repr, Inhabited

inductive Node where
  | value (v : Value)
  | table (origin : Origin) (entries : List (String × Node))
  | tables (last : List (String × Node))
deriving Repr, Inhabited

abbrev Entries := List (String × Node)

structure Table where
  origin : Origin
  entries : Entries
deriving Repr, Inhabited

namespace Entries

def set (entries : Entries) (key : String) (node : Node) : Entries :=
  match entries with
  | [] => [(key, node)]
  | (k, n) :: rest => if k = key then (key, node) :: rest else (k, n) :: set rest key node

def remove (entries : Entries) (key : String) : Entries := entries.filter (·.1 != key)

/-- Change the table at the end of a path. What is missing on the way is made, with the origin
`via`; dotted keys pass through no table that has a header. -/
def change? (via : Origin) (f : Table → Option Table) (table : Table) : List String → Option Table
  | [] => f table
  | key :: path =>
    match table.entries.lookup key with
    | none => do
      let child ← change? via f ⟨via, []⟩ path
      return ⟨table.origin, set table.entries key (.table child.origin child.entries)⟩
    | some (.table origin entries) =>
      if via = .dotted ∧ origin = .header then none
      else do
        let child ← change? via f ⟨origin, entries⟩ path
        return ⟨table.origin, set table.entries key (.table child.origin child.entries)⟩
    | some (.tables last) => do
      let child ← change? via f ⟨.header, last⟩ path
      return ⟨table.origin, set table.entries key (.tables child.entries)⟩
    | some (.value _) => none

def insert? (entries : Entries) (key : List String) (v : Value) : Option Entries := do
  let path := key.dropLast
  let name ← key.getLast?
  let changed ← change? .dotted (fun t =>
    if (!path.isEmpty && t.origin != .dotted) || (t.entries.lookup name).isSome then none
    else some ⟨t.origin, t.entries ++ [(name, .value v)]⟩) ⟨.header, entries⟩ path
  return changed.entries

end Entries

end LiteModel.Toml
