import Rowset.Text.Integer
import Rowset.Text.Visible

/-!
# Text: quoted for a reader

A text between double quotes in which every character can be seen: the quote, the backslash and the
usual controls have short escapes, and what has no visible form is given by its code point.
-/

namespace Rowset.Text

/-- What stands for a character between quotes. -/
def quotedChar (c : Char) : List Char :=
  match c with
  | '"' => ['\\', '"']
  | '\\' => ['\\', '\\']
  | '\n' => ['\\', 'n']
  | '\x0d' => ['\\', 'r']
  | '\t' => ['\\', 't']
  | '\x00' => ['\\', '0']
  | c =>
    if isVisible c then [c]
    else '\\' :: 'u' :: '\x7b' :: Nat.toDigits 16 c.toNat ++ ['\x7d']

/-- A text between quotes. -/
def quoted (s : String) : String :=
  String.ofList ('"' :: s.toList.flatMap quotedChar ++ ['"'])

end Rowset.Text
