import Rowset.Json.Basic
import Rowset.Text.Blank
import Rowset.Text.Integer

/-!
# Values

The scalars that are bound into statements and read from rows. A value of a row or of an attribute
map is one of six shapes; `ofJson?` takes the scalars of a structured value, and `integer?` reads
the integer that a value holds in any of the shapes in which a count can come back.
-/

namespace Rowset

/-- A scalar. -/
inductive Value where
  | null
  | bool (value : Bool)
  | int (value : Int64)
  | float (value : Binary.Double)
  | text (value : String)
  | bytes (value : List UInt8)
  deriving DecidableEq, Repr

namespace Value

/-- Holds of the missing value. -/
def isNull : Value → Bool
  | .null => true
  | _ => false

/-- The text that a text value holds. -/
def text? : Value → Option String
  | .text s => some s
  | _ => none

/-- The signed word nearest to an integer. -/
def saturate (n : Int) : Int64 :=
  if n < -(Nat.pow 2 63 : Int) then Int64.minValue
  else if (Nat.pow 2 63 : Int) ≤ n then Int64.maxValue
  else Int64.ofInt n

/-- The integer that a value holds: an integer itself, an integral number, which is brought into
range, or a decimal text with blanks around it. -/
def integer? : Value → Option Int64
  | .int n => some n
  | .float x => x.exactInt?.map saturate
  | .text s => Text.readInt64? (Text.trimmed s.toList)
  | _ => none

/-- The scalar that a number is. An unsigned number beyond the signed words stays exact as its
digits. -/
def ofNumber : Json.Number → Value
  | .integer n => if Text.fitsSigned 64 n then .int (Int64.ofInt n) else .text (Text.ofInt n)
  | .real x => .float x

/-- The scalar that a structured value is, if it is one. -/
def ofJson? : Json → Option Value
  | .null => some .null
  | .bool b => some (.bool b)
  | .number n => some (ofNumber n)
  | .string s => some (.text s)
  | .array _ => none
  | .object _ => none

/-- A value as a structured value; bytes are an array of numbers. -/
def toJson : Value → Json
  | .null => .null
  | .bool b => .bool b
  | .int n => .number (.integer n.toInt)
  | .float x => .number (.real x)
  | .text s => .string s
  | .bytes bs => .array (bs.map fun b => .number (.integer (b.toNat : Int)))

end Value

end Rowset
