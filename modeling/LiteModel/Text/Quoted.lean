import LiteModel.Text.Hidden

/-! Texts between double quotes, as error messages quote them. A quote and a backslash follow a
backslash, the common controls have a letter, and a character that cannot be shown is given by its
code point in hexadecimal. -/
namespace LiteModel.Text

def hexadecimal (n : Nat) : String :=
  String.ofList (Nat.toDigits 16 n)

def quotedChar (c : Char) : String :=
  match c with
  | '"' => "\\\""
  | '\\' => "\\\\"
  | '\n' => "\\n"
  | '\r' => "\\r"
  | '\t' => "\\t"
  | '\x00' => "\\0"
  | _ => if isHidden c then "\\u\x7b" ++ hexadecimal c.toNat ++ "\x7d" else c.toString

def quoted (text : String) : String :=
  "\"" ++ String.join (text.toList.map quotedChar) ++ "\""

end LiteModel.Text
