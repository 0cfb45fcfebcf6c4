import Rowset.Text.Bytes

/-!
# Text: percent encoding

A text in which `%` and two hexadecimal digits stand for a byte, and every other character for the
bytes of its UTF-8 form. A `%` without two digits behind it stands for itself.
-/

namespace Rowset.Text

/-- The bytes that a percent-encoded text stands for. -/
def percentBytes : List Char → List UInt8
  | [] => []
  | '%' :: high :: low :: cs =>
    match hexValue? high, hexValue? low with
    | some h, some l => UInt8.ofNat (16 * h + l) :: percentBytes cs
    | _, _ => toUtf8 "%" ++ percentBytes (high :: low :: cs)
  | c :: cs => toUtf8 c.toString ++ percentBytes cs

/-- The text that a percent-encoded text stands for, if its bytes are the UTF-8 form of one. -/
def percentDecoded? (cs : List Char) : Option (List Char) :=
  (ofUtf8? (percentBytes cs)).map String.toList

end Rowset.Text
