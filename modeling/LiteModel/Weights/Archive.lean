import LiteModel.Json.Decoding
import LiteModel.ElementType
import LiteModel.Word
import LiteModel.Text.Quoted

/-! Archives of named tensors. An archive is the length of its header in eight bytes, the header, a
JSON map from names to an element type, a shape and a range of bytes, and then the data that the
ranges point into. The ranges cover the data without a gap or an overlap. -/
namespace LiteModel

inductive StoredType where
  | bool
  | u8
  | i8
  | f8e5m2
  | f8e4m3
  | i16
  | u16
  | f16
  | bf16
  | i32
  | u32
  | f32
  | f64
  | i64
  | u64
deriving DecidableEq, Repr, Inhabited

namespace StoredType

def all : List StoredType :=
  [bool, u8, i8, f8e5m2, f8e4m3, i16, u16, f16, bf16, i32, u32, f32, f64, i64, u64]

def label : StoredType → String
  | bool => "BOOL"
  | u8 => "U8"
  | i8 => "I8"
  | f8e5m2 => "F8_E5M2"
  | f8e4m3 => "F8_E4M3"
  | i16 => "I16"
  | u16 => "U16"
  | f16 => "F16"
  | bf16 => "BF16"
  | i32 => "I32"
  | u32 => "U32"
  | f32 => "F32"
  | f64 => "F64"
  | i64 => "I64"
  | u64 => "U64"

def ofLabel? (label : String) : Option StoredType := all.find? (·.label == label)

def byteSize : StoredType → Nat
  | bool | u8 | i8 | f8e5m2 | f8e4m3 => 1
  | i16 | u16 | f16 | bf16 => 2
  | i32 | u32 | f32 => 4
  | f64 | i64 | u64 => 8

def elementType? : StoredType → Option ElementType
  | f32 => some .f32
  | f16 => some .f16
  | bf16 => some .bf16
  | i8 => some .i8
  | i32 => some .i32
  | u8 => some .u8
  | _ => none

theorem byteSize_of_elementType? {s : StoredType} {t : ElementType}
    (h : s.elementType? = some t) : s.byteSize = t.byteSize := by
  cases s <;> simp [elementType?] at h <;> subst h <;> rfl

end StoredType

structure ArchiveEntry where
  name : String
  type : StoredType
  dims : List UInt64
  start : UInt64
  stop : UInt64
deriving DecidableEq, Repr, Inhabited

structure Archive where
  entries : List ArchiveEntry
  data : List UInt8
deriving Repr, Inhabited

inductive ArchiveFault where
  | headerTooSmall
  | headerTooLarge
  | headerCutOff
  | headerNotText
  | headerMalformed
  | gapBefore (name : String)
  | sizeOverflow
  | wrongSize
  | dataMismatch
deriving DecidableEq, Repr

def ArchiveFault.message : ArchiveFault → String
  | headerTooSmall => "HeaderTooSmall"
  | headerTooLarge => "HeaderTooLarge"
  | headerCutOff => "InvalidHeaderLength"
  | headerNotText => "InvalidHeader"
  | headerMalformed => "InvalidHeaderDeserialization"
  | gapBefore name => "InvalidOffset(" ++ Text.quoted name ++ ")"
  | sizeOverflow => "ValidationOverflow"
  | wrongSize => "TensorInvalidInfo"
  | dataMismatch => "MetadataIncompleteBuffer"

namespace ArchiveEntry
open Json

def readType : Tree → Option StoredType
  | .string (some label)
  | .object [(some label, .null)] .closed => StoredType.ofLabel? label
  | _ => none

def readSizes (t : Tree) : Option (List UInt64) := (t.readList Tree.readSize).toOption

def readRange (t : Tree) : Option (UInt64 × UInt64) := do
  match ← readSizes t with
  | [start, stop] => some (start, stop)
  | _ => none

structure Fields where
  type : Option StoredType := none
  dims : Option (List UInt64) := none
  range : Option (UInt64 × UInt64) := none

def Fields.add? (f : Fields) (member : Option String × Tree) : Option Fields := do
  match member.1 with
  | some "dtype" =>
    if f.type.isSome then none else return { f with type := some (← readType member.2) }
  | some "shape" =>
    if f.dims.isSome then none else return { f with dims := some (← readSizes member.2) }
  | some "data_offsets" =>
    if f.range.isSome then none else return { f with range := some (← readRange member.2) }
  | _ => return f

def read (name : String) : Tree → Option ArchiveEntry
  | .object members .closed => do
    let f ← members.foldlM Fields.add? {}
    let (start, stop) ← f.range
    return ⟨name, ← f.type, ← f.dims, start, stop⟩
  | .array [type, dims, range] .closed => do
    let type ← readType type
    let dims ← readSizes dims
    let (start, stop) ← readRange range
    return ⟨name, type, dims, start, stop⟩
  | _ => none

/-- The bytes that the elements take. The product of the dimensions is taken from the left and must
stay in range all the way. -/
def byteSize? (e : ArchiveEntry) : Option UInt64 := do
  Word.mul? (← e.dims.foldlM Word.mul? 1) (UInt64.ofNat e.type.byteSize)

def notAfter (a b : ArchiveEntry) : Bool :=
  a.start < b.start || (a.start == b.start && a.stop ≤ b.stop)

def follow (previous : UInt64) (e : ArchiveEntry) : Except ArchiveFault UInt64 :=
  if e.start ≠ previous ∨ e.stop < e.start then .error (.gapBefore e.name)
  else match e.byteSize? with
  | none => .error .sizeOverflow
  | some size => if e.stop - e.start = size then .ok e.stop else .error .wrongSize

end ArchiveEntry

namespace Archive
open Json

def largestHeader : Nat := 100000000

def deepestNesting : Nat := 127

def isPlain : Token → Bool
  | .bad | .string none | .number .outOfRange => false
  | _ => true

def nesting (depth : Nat) : Token → Nat
  | .openArray | .openObject => depth + 1
  | .closeArray | .closeObject => depth - 1
  | _ => depth

def isShallow (depth : Nat) : List Token → Bool
  | [] => true
  | t :: rest => nesting depth t ≤ deepestNesting && isShallow (nesting depth t) rest

def notesKey : String := "__metadata__"

def isNotes (t : Tree) : Bool :=
  match t with
  | .null => true
  | t => t.readPairs.isOk

/-- Of a name that stands twice the later entry counts. -/
def addEntry? (entries : List ArchiveEntry) (member : Option String × Tree) :
    Option (List ArchiveEntry) := do
  let name ← member.1
  if name = notesKey then return entries
  let e ← ArchiveEntry.read name member.2
  return entries.filter (·.name != name) ++ [e]

def ofMembers? (members : List (Option String × Tree)) : Option (List ArchiveEntry) :=
  let notes := members.filter (·.1 == some notesKey)
  if 1 < notes.length || notes.any (fun member => !isNotes member.2) then none
  else members.foldlM addEntry? []

def ofHeader? (header : String) : Option (List ArchiveEntry) :=
  let tokens := Token.scan header
  if tokens.all isPlain && isShallow 0 tokens then
    match Document.ofTokens tokens with
    | ⟨.object members .closed, true⟩ => ofMembers? members
    | _ => none
  else none

def ofBytes (bytes : List UInt8) : Except ArchiveFault Archive := do
  if bytes.length < 8 then throw .headerTooSmall
  let length := Word.ofBytes (bytes.take 8)
  let body := bytes.drop 8
  if largestHeader < length then throw .headerTooLarge
  if body.length < length then throw .headerCutOff
  let some header := String.fromUTF8? ⟨(body.take length).toArray⟩ | throw .headerNotText
  let some entries := ofHeader? header | throw .headerMalformed
  let entries := entries.mergeSort ArchiveEntry.notAfter
  let data := body.drop length
  let stop ← entries.foldlM ArchiveEntry.follow 0
  if stop.toNat = data.length then return ⟨entries, data⟩ else throw .dataMismatch

def find? (a : Archive) (name : String) : Option ArchiveEntry :=
  a.entries.find? (·.name == name)

def bytesOf (a : Archive) (e : ArchiveEntry) : List UInt8 :=
  (a.data.drop e.start.toNat).take (e.stop.toNat - e.start.toNat)

end Archive

end LiteModel
