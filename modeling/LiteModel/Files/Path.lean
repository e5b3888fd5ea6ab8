import LiteModel.Files.Fault

/-! Paths as texts: names with slashes between them. Slashes at the end and slashes in a row leave
empty names, which count like a single dot. -/
namespace LiteModel.Files.Path

def split : List Char → List (List Char)
  | [] => [[]]
  | c :: rest =>
    if c = '/' then [] :: split rest
    else match split rest with
      | [] => [[c]]
      | name :: names => (c :: name) :: names

def names (path : String) : List String := (split path.toList).map String.ofList

def longestName : Nat := 255
def longestPath : Nat := 4095

def check (path : String) : Except FileFault Unit :=
  if path.toList.contains '\x00' then .error .zeroInName
  else if longestPath < path.utf8ByteSize then .error .nameTooLong
  else .ok ()

/-- Refuse a name in a directory when its whole path is too long. Whole paths begin with some text,
the slash at its end included. -/
def checkWhole (start directory name : String) : Except FileFault Unit := do
  check directory
  if longestPath < start.utf8ByteSize + directory.utf8ByteSize + 1 + name.utf8ByteSize then
    throw .nameTooLong

def checkName (name : String) : Except FileFault Unit :=
  if longestName < name.utf8ByteSize then .error .nameTooLong else .ok ()

def isStill (name : String) : Bool := name.isEmpty || name == "."

def join (directory name : String) : String :=
  if directory.isEmpty || directory.toList.getLast? == some '/' then directory ++ name
  else directory ++ "/" ++ name

def settled (names : List String) : List String := (names.reverse.dropWhile isStill).reverse

/-- The names on the way to the directory in which the last name of the path is. Those among them
that stand still count for the length of the way. -/
def parentNames (path : String) : List String := settled (settled (names path)).dropLast

def parent (path : String) : String := "/".intercalate (parentNames path)

end LiteModel.Files.Path
