/-! The element types of a tensor: the bytes that one element takes, the labels that manifests use
and the codes that containers use. -/
namespace LiteModel

inductive ElementType where
  | f32
  | f16
  | bf16
  | i8
  | i32
  | u8
deriving DecidableEq, Repr, Inhabited

namespace ElementType

def all : List ElementType := [f32, f16, bf16, i8, i32, u8]

def byteSize : ElementType → Nat
  | f32 | i32 => 4
  | f16 | bf16 => 2
  | i8 | u8 => 1

theorem byteSize_pos (t : ElementType) : 0 < t.byteSize := by cases t <;> decide

def label : ElementType → String
  | f32 => "f32"
  | f16 => "f16"
  | bf16 => "bf16"
  | i8 => "i8"
  | i32 => "i32"
  | u8 => "u8"

def ofName? : String → Option ElementType
  | "f32" | "float32" | "float" => some f32
  | "f16" | "float16" | "half" => some f16
  | "bf16" | "bfloat16" => some bf16
  | "i8" | "int8" => some i8
  | "i32" | "int32" => some i32
  | "u8" | "uint8" => some u8
  | _ => none

/-- The type that a label names in any mixture of cases. Lowering the ASCII letters is enough: no
letter outside ASCII has a lower case made of letters that the names use. -/
def ofLabel? (label : String) : Option ElementType :=
  ofName? (label.map Char.toLower)

def code : ElementType → Int8
  | f32 => 0
  | f16 => 1
  | i32 => 2
  | u8 => 3
  | i8 => 9
  | bf16 => 18

def ofCode? (code : Int8) : Option ElementType :=
  all.find? (·.code == code)

theorem ofCode?_code (t : ElementType) : ofCode? t.code = some t := by cases t <;> decide

end ElementType

end LiteModel
