import LiteModel.Files.Tree

/-! Replacing the content of a file as a whole. The new content is written to a temporary file in
the same directory, which is then renamed; until then the file at the destination is untouched, and
if a step fails the temporary file is removed. A file that is replaced hands its permission bits
on. -/
namespace LiteModel.Files

structure Replacement where
  destination : String
  bytes : List UInt8
  temporary : Location
deriving Repr

namespace Replacement

inductive Step where
  | create
  | write
  | adoptMode
  | sync
  | rename
deriving DecidableEq, Repr

def Step.all : List Step := [.create, .write, .adoptMode, .sync, .rename]

def temporaryMode : Nat := 0o600

def temporaryForm : String := ".tmpXXXXXX"

def freshName (taken : List String) : String :=
  ".tmp" ++ String.ofList (List.replicate (String.join taken).length '0')

def plan (t : Tree) (destination : String) (bytes : List UInt8) :
    Except FileFault Replacement := do
  let parent := Path.parent destination
  Path.checkWhole t.origin (if parent.isEmpty then "." else parent) temporaryForm
  let directory ← t.enter (← t.walk (Path.parentNames destination)) "."
  let taken := t.namesIn directory ++ Path.names destination
  return ⟨destination, bytes, directory ++ [freshName taken]⟩

def modeOf (t : Tree) (destination : String) : Nat :=
  match t.entry destination with
  | .ok e => e.mode
  | .error _ => Mode.newFile

/-- Where a file is when it has been renamed to the destination. The last name of the path must be
a name of its own with no slash after it. -/
def target (t : Tree) (destination : String) : Except FileFault Location := do
  Path.check destination
  if destination.isEmpty then throw .notFound
  let names := Path.names destination
  let named := ((names.reverse.dropWhile String.isEmpty)).reverse
  let directory ← t.walk named.dropLast
  let l ← t.enter directory "."
  match named.getLast? with
  | none | some "." | some ".." => throw .busy
  | some name =>
    Path.checkName name
    if named.length < names.length then throw .notADirectory else return l ++ [name]

def perform (r : Replacement) (t : Tree) : Step → Except FileFault Tree
  | .create => t.create r.temporary fun _ => .file [] temporaryMode
  | .write =>
    match t.find? r.temporary with
    | some e => .ok (t.insert r.temporary (.file r.bytes e.mode))
    | none => .error .notFound
  | .adoptMode =>
    match t.find? r.temporary with
    | some e => .ok (t.insert r.temporary (e.withMode (modeOf t r.destination)))
    | none => .error .notFound
  | .sync => .ok t
  | .rename => do
    let l ← target t r.destination
    match t.find? l, t.find? r.temporary with
    | some (.directory _), _ => .error .isADirectory
    | _, some e => .ok ((t.remove r.temporary).insert l e)
    | _, none => .error .notFound

/-- A step that fails although it could have worked out: a write may have come some way. -/
structure Interruption where
  step : Step
  fault : FileFault
  written : Nat := 0
deriving Repr

def Interruption.leave (i : Interruption) (r : Replacement) (t : Tree) : Tree :=
  match i.step, t.find? r.temporary with
  | .write, some e => t.insert r.temporary (.file (r.bytes.take i.written) e.mode)
  | _, _ => t

def attempt (r : Replacement) (interruption : Option Interruption) (t : Tree) (step : Step) :
    Except (Tree × FileFault) Tree :=
  match interruption.filter (·.step == step) with
  | some i => .error (i.leave r t, i.fault)
  | none => (r.perform t step).mapError fun fault => (t, fault)

def run (r : Replacement) (interruption : Option Interruption) (passed : List Tree) (t : Tree) :
    List Step → List Tree × Except FileFault Unit
  | [] => (t :: passed, .ok ())
  | step :: rest =>
    match r.attempt interruption t step with
    | .ok next => r.run interruption (t :: passed) next rest
    | .error (left, fault) => (left.remove r.temporary :: left :: t :: passed, .error fault)

end Replacement

namespace Tree

def replaceFile (t : Tree) (destination : String) (bytes : List UInt8) :
    Tree × Except FileFault Unit :=
  match Replacement.plan t destination bytes with
  | .error fault => (t, .error fault)
  | .ok r =>
    let (trees, ending) := r.run none [] t Replacement.Step.all
    (trees.headD t, ending)

end Tree

end LiteModel.Files
