import LiteModel.Export.Operation
import LiteModel.Container.Verification
import LiteModel.Numbering.Table

/-! Why a graph does not become a container. -/
namespace LiteModel

inductive ExportError where
  | lowering (error : LoweringError)
  | keyNotFound (key : String)
  | indexOutOfRange (index size : Nat)
  | unknownVariable (id : VariableId)
  | oversizedDimension (dimension : UInt64) (name : String)
  | oversizedWeights (bytes : Nat)
  | oversizedIndex (index : Nat)
  | verification (fault : Container.VerificationFault)
deriving DecidableEq, Repr

def ExportError.message : ExportError → String
  | lowering error => error.message
  | keyNotFound key => "key not found: " ++ key
  | indexOutOfRange index size =>
    "index " ++ index.repr ++ " out of range (size " ++ size.repr ++ ")"
  | unknownVariable id => "invalid graph: unknown variable " ++ id.render
  | oversizedDimension dimension name =>
    "invalid graph: dimension " ++ dimension.toNat.repr ++ " of '" ++ name ++
      "' does not fit in i32"
  | oversizedWeights bytes =>
    "invalid graph: " ++ bytes.repr ++ " bytes of weights exceed the 2 GiB container limit"
  | oversizedIndex index => "invalid graph: tensor index " ++ index.repr ++ " exceeds i32"
  | verification fault => "verifying serialized model failed: " ++ fault.message

namespace Numbering.Table

variable {α : Type} [BEq α]

def indexOf (t : Table α) (render : α → String) (a : α) : Except ExportError UInt32 :=
  match t.indexOf? a with
  | some i => .ok i
  | none => .error (.keyNotFound (render a))

def valueAt (t : Table α) (i : UInt32) : Except ExportError α :=
  match t.valueAt? i with
  | some a => .ok a
  | none => .error (.indexOutOfRange i.toNat t.size)

end Numbering.Table

end LiteModel
