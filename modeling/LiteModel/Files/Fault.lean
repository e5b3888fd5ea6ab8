/-! Why a file cannot be read or written. -/
namespace LiteModel

inductive FileFault where
  | notFound
  | notADirectory
  | isADirectory
  | busy
  | denied
  | nameTooLong
  | zeroInName
  | notText
  | other (text : String)
deriving DecidableEq, Repr, Inhabited

def FileFault.message : FileFault → String
  | notFound => "No such file or directory (os error 2)"
  | notADirectory => "Not a directory (os error 20)"
  | isADirectory => "Is a directory (os error 21)"
  | busy => "Device or resource busy (os error 16)"
  | denied => "Permission denied (os error 13)"
  | nameTooLong => "File name too long (os error 36)"
  | zeroInName => "file name contained an unexpected NUL byte"
  | notText => "stream did not contain valid UTF-8"
  | other text => text

namespace Files

abbrev Reader := String → Except FileFault (List UInt8)

def Reader.text (read : Reader) (path : String) : Except FileFault String := do
  match String.fromUTF8? ⟨(← read path).toArray⟩ with
  | some text => .ok text
  | none => .error .notText

end Files

end LiteModel
