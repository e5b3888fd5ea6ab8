import LiteModel.Files.Fault

/-! Permission bits. Whoever uses a tree owns all that is in it, so of the bits that allow something
those of the owner are in force; the bits themselves can be changed whatever they are. -/
namespace LiteModel.Files

inductive Right where
  | read
  | write
  | search
deriving DecidableEq, Repr

def Right.bit : Right → Nat
  | read => 0o400
  | write => 0o200
  | search => 0o100

namespace Mode

def has (mode bit : Nat) : Bool := mode / bit % 2 == 1

def clear (mode bit : Nat) : Nat := if has mode bit then mode - bit else mode

def bound : Nat := 0o10000

def setUserId : Nat := 0o4000
def setGroupId : Nat := 0o2000
def groupExecute : Nat := 0o10

def newFile : Nat := 0o644
def newDirectory : Nat := 0o755

/-- The bits of a file after a write: it no longer runs as its owner, nor as its group if the group
may run it. -/
def written (mode : Nat) : Nat :=
  let mode := clear mode setUserId
  if has mode groupExecute then clear mode setGroupId else mode

/-- The bits of a directory made in another one, of which it takes over the set-group-id bit. -/
def madeIn (parent : Nat) : Nat :=
  if has parent setGroupId then newDirectory + setGroupId else newDirectory

def demand (mode : Nat) (right : Right) : Except FileFault Unit :=
  if has mode right.bit then .ok () else .error .denied

end Mode

end LiteModel.Files
