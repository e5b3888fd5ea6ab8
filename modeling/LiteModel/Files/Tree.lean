import LiteModel.Files.Mode
import LiteModel.Files.Path

/-! Trees of files and directories, each with permission bits. A location is the list of names that
leads to it from the directory in which paths begin. -/
namespace LiteModel.Files

abbrev Location := List String

inductive Entry where
  | file (bytes : List UInt8) (mode : Nat)
  | directory (mode : Nat)
deriving DecidableEq, Repr, Inhabited

def Entry.mode : Entry → Nat
  | file _ mode => mode
  | directory mode => mode

def Entry.withMode (mode : Nat) : Entry → Entry
  | file bytes _ => file bytes mode
  | directory _ => directory mode

structure Tree where
  /-- The whole path of the directory in which paths begin, with a slash at the end. -/
  origin : String
  entries : List (Location × Entry)
deriving DecidableEq, Repr, Inhabited

namespace Tree

def empty (origin : String) : Tree := ⟨origin, [([], .directory Mode.newDirectory)]⟩

def find? (t : Tree) (l : Location) : Option Entry := t.entries.lookup l

def remove (t : Tree) (l : Location) : Tree := { t with entries := t.entries.filter (·.1 != l) }

def insert (t : Tree) (l : Location) (e : Entry) : Tree :=
  { t with entries := (l, e) :: (t.remove l).entries }

def namesIn (t : Tree) (l : Location) : List String :=
  t.entries.filterMap fun (here, _) =>
    if here.dropLast = l then here.getLast? else none

/-- Go on from a directory to a name, which need not be there. The empty name at the end of a path
asks for a directory and does not search it. -/
def enter (t : Tree) (here : Location) (name : String) : Except FileFault Location := do
  match t.find? here with
  | none => throw .notFound
  | some (.file ..) => throw .notADirectory
  | some (.directory mode) =>
    if !name.isEmpty then Mode.demand mode .search
    Path.checkName name
    return if Path.isStill name then here
      else if name = ".." then here.dropLast
      else here ++ [name]

def walk (t : Tree) (names : List String) : Except FileFault Location := names.foldlM t.enter []

def locate (t : Tree) (path : String) : Except FileFault Location := do
  Path.check path
  if path.isEmpty then throw .notFound
  t.walk (Path.names path)

def entry (t : Tree) (path : String) : Except FileFault Entry := do
  match t.find? (← t.locate path) with
  | some e => .ok e
  | none => .error .notFound

def read (t : Tree) : Reader := fun path => do
  let e ← t.entry path
  Mode.demand e.mode .read
  match e with
  | .file bytes _ => return bytes
  | .directory _ => throw .isADirectory

def list (t : Tree) (path : String) : Except FileFault (List String) := do
  let l ← t.locate path
  match t.find? l with
  | some (.directory mode) =>
    Mode.demand mode .read
    return (t.namesIn l).mergeSort fun a b => decide (a ≤ b)
  | some (.file ..) => throw .notADirectory
  | none => throw .notFound

def create (t : Tree) (l : Location) (e : Nat → Entry) : Except FileFault Tree := do
  match t.find? l.dropLast with
  | some (.directory mode) =>
    Mode.demand mode .write
    return t.insert l (e mode)
  | some (.file ..) => throw .notADirectory
  | none => throw .notFound

/-- Put a file in place directly. One that is there keeps its permission bits, but for
those that a write takes away. -/
def put (t : Tree) (path : String) (bytes : List UInt8) : Except FileFault Tree := do
  let l ← t.locate path
  match t.find? l with
  | some (.file _ mode) =>
    Mode.demand mode .write
    return t.insert l (.file bytes (Mode.written mode))
  | some (.directory _) => throw .isADirectory
  | none => t.create l fun _ => .file bytes Mode.newFile

def enterNew (state : Tree × Location) (name : String) : Except FileFault (Tree × Location) := do
  let (t, here) := state
  let l ← t.enter here name
  match t.find? l with
  | some (.directory _) => return (t, l)
  | some (.file ..) => throw .notADirectory
  | none => return (← t.create l fun mode => .directory (Mode.madeIn mode), l)

def makeDirectory (t : Tree) (path : String) : Except FileFault Tree := do
  Path.check path
  return (← (Path.names path).foldlM enterNew (t, [])).1

def setMode (t : Tree) (path : String) (mode : Nat) : Except FileFault Tree := do
  let l ← t.locate path
  match t.find? l with
  | some e => .ok (t.insert l (e.withMode (mode % Mode.bound)))
  | none => .error .notFound

end Tree

end LiteModel.Files
