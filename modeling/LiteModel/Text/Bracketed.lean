/-! Lists in square brackets and padded columns, as the summaries print them. -/
namespace LiteModel.Text

def bracketed (items : List String) : String :=
  "[" ++ ", ".intercalate items ++ "]"

def numbers (ns : List Nat) : String :=
  bracketed (ns.map Nat.repr)

def integers (ns : List Int32) : String :=
  bracketed (ns.map fun n => n.toInt.repr)

def padding (width : Nat) (text : String) : String :=
  String.ofList (List.replicate (width - text.length) ' ')

def alignLeft (width : Nat) (text : String) : String :=
  text ++ padding width text

def alignRight (width : Nat) (text : String) : String :=
  padding width text ++ text

end LiteModel.Text
