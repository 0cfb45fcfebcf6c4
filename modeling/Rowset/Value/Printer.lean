import Rowset.Json.Printer
import Rowset.Text.Quoted
import Rowset.Value

/-!
# Values: their texts

A value has a plain text, which is what a text column takes, a structured text, and a description
that also tells its shape, for the words of a fault.
-/

namespace Rowset.Value

/-- All digits are written, and an integral number has no fraction. -/
def plainLayout : Binary.Layout where
  positional _ := true
  fraction := false
  plus := false
  tie := .up

/-- An exponent is written from `1e16` on and below `1e-4`; all other numbers have a decimal
point. -/
def descriptionLayout : Binary.Layout where
  positional order := decide (-4 ≤ order ∧ order < 16)
  fraction := true
  plus := false
  tie := .up

/-- The word for a truth value. -/
def boolWord (b : Bool) : String :=
  if b then "true" else "false"

/-- The plain text of a value; bytes are only counted. -/
def display : Value → String
  | .null => "NULL"
  | .bool b => boolWord b
  | .int n => Text.ofInt n.toInt
  | .float x => plainLayout.write x
  | .text s => s
  | .bytes bs => "<" ++ toString bs.length ++ " bytes>"

/-- The structured text of a value. -/
def json (value : Value) : String :=
  value.toJson.print

/-- The shape of a value and what it holds. -/
def describe : Value → String
  | .null => "Null"
  | .bool b => "Bool(" ++ boolWord b ++ ")"
  | .int n => "Int(" ++ Text.ofInt n.toInt ++ ")"
  | .float x => "Float(" ++ descriptionLayout.write x ++ ")"
  | .text s => "Text(" ++ Text.quoted s ++ ")"
  | .bytes bs =>
    "Bytes([" ++ String.intercalate ", " (bs.map fun b => toString b.toNat) ++ "])"

end Rowset.Value
