import Rowset.Binary.Reader
import Rowset.Calendar
import Rowset.Json.Source
import Rowset.Text.Bytes
import Rowset.Value.Printer
import Rowset.Wire.Numeric
import Rowset.Wire.SqlType
import Rowset.Wire.Uuid

/-!
# The wire: parameters

A value is written in the shape of the type that the server has inferred for its placeholder. A
shape takes the values that stand for one of its own exactly; every other value is refused. The
missing value is of every type and has no bytes.
-/

namespace Rowset.Wire

/-- Why a value cannot be written as a type. -/
inductive EncodeProblem where
  | mismatch (value : Value) (type : SqlType)
  | notALabel (label : String) (type : SqlType)
  | unsupported (type : SqlType)
  | uuid
  deriving DecidableEq

/-- The words for a problem, if there are any. -/
def EncodeProblem.message? : EncodeProblem → Option String
  | .mismatch value type => some ("cannot encode " ++ value.describe ++ " as " ++ type.display)
  | .notALabel label type =>
    some ("'" ++ label ++ "' is not a label of enum " ++ type.display)
  | .unsupported type => some ("unsupported parameter type " ++ type.display)
  | .uuid => none

/-- The truth value that a value stands for. -/
def toBool? : Value → Option Bool
  | .bool b => some b
  | .int n => if n = 0 then some false else if n = 1 then some true else none
  | .text s =>
    let word := s.toLower
    if word = "true" ∨ word = "t" then some true
    else if word = "false" ∨ word = "f" then some false
    else none
  | _ => none

/-- The integer that a value stands for. -/
def toInteger? : Value → Option Int
  | .bool b => some (if b then 1 else 0)
  | value => value.integer?.map Int64.toInt

/-- The double that a value stands for. -/
def toDouble? : Value → Option Binary.Double
  | .int n => some (.ofInt n.toInt)
  | .float x => some x
  | .text s => Binary.Double.read? (Text.trimmed s.toList)
  | _ => none

/-- The decimal number that a value stands for. -/
def toNumeric? : Value → Option Numeric
  | .int n => some ⟨decide (n.toInt < 0), n.toInt.natAbs, 0⟩
  | .float x => Numeric.ofDouble? x
  | .text s => Numeric.read? (Text.trimmed s.toList)
  | _ => none

/-- The text that a value stands for. Bytes stand for none. -/
def toText? : Value → Option String
  | .bytes _ => none
  | value => some value.display

/-- The bytes that a value stands for. -/
def toBytes? : Value → Option (List UInt8)
  | .bytes bs => some bs
  | .text s => some (Text.toUtf8 s)
  | _ => none

/-- The structured value that a value stands for: a text that can be read as one stands for it, and
any other text for itself. -/
def toStructured : Value → Json
  | .text s => (Json.parse? s).getD (.string s)
  | value => value.toJson

/-- The instant that a value stands for, in nanoseconds. -/
def toInstant? : Value → Option Int
  | .text s => Calendar.readInstant? (Text.trimmed s.toList)
  | _ => none

/-- The date that a value stands for. -/
def toDate? : Value → Option Calendar.Date
  | .text s => Calendar.Date.read? (Text.trimmed s.toList)
  | _ => none

/-- Writes an integer that fits its width. -/
def integerBytes? (width : Nat) (value : Value) : Option (List UInt8) :=
  match toInteger? value with
  | some n => if Text.fitsSigned (8 * width) n then some (Text.bigEndianInt width n) else none
  | none => none

/-- Writes an instant in microseconds; what is left of the nanoseconds is dropped toward zero. -/
def instantBytes (nanos : Int) : List UInt8 :=
  Text.bigEndianInt 8 (nanos.tdiv 1000)

/-- The bytes of a value in a shape, or nothing if it stands for none of that shape. -/
def shapeBytes? (shape : Shape) (value : Value) : Option (List UInt8) :=
  match shape with
  | .bool => (toBool? value).map fun b => [if b then 1 else 0]
  | .int2 => integerBytes? 2 value
  | .int4 => integerBytes? 4 value
  | .int8 => integerBytes? 8 value
  | .float4 => (toDouble? value).map fun x => Text.bigEndian 4 x.toSingleBits.toNat
  | .float8 => (toDouble? value).map fun x => Text.bigEndian 8 x.bits.toNat
  | .numeric => (toNumeric? value).map Numeric.toWire
  | .text => (toText? value).map Text.toUtf8
  | .bytes => toBytes? value
  | .json => some (Text.toUtf8 (toStructured value).print)
  | .jsonb => some (1 :: Text.toUtf8 (toStructured value).print)
  | .timestamp => (toInstant? value).map instantBytes
  | .timestamptz => (toInstant? value).map instantBytes
  | .date => (toDate? value).map fun d => Text.bigEndianInt 4 d.toDays
  | _ => none

/-- The bytes of a value as an identifier. Here a text that is none has a problem of its own. -/
def uuidBytes (type : SqlType) : Value → Except EncodeProblem (List UInt8)
  | .text s =>
    match Uuid.read? (Text.trimmed s.toList) with
    | some bytes => .ok bytes
    | none => .error .uuid
  | .bytes bs => if bs.length = 16 then .ok bs else .error .uuid
  | value => .error (.mismatch value type)

/-- The bytes of a value as a label. -/
def labelBytes (type : SqlType) (labels : List String) :
    Value → Except EncodeProblem (List UInt8)
  | .text label =>
    if label ∈ labels then .ok (Text.toUtf8 label) else .error (.notALabel label type)
  | value => .error (.mismatch value type)

/-- **The bytes of a value as a parameter of a type;** the missing value has none. -/
def encode (type : SqlType) (value : Value) : Except EncodeProblem (Option (List UInt8)) :=
  if value.isNull then .ok none
  else
    match type.shape with
    | .uuid => (uuidBytes type value).map some
    | .labels labels => (labelBytes type labels value).map some
    | .oid => .error (.unsupported type)
    | .unmapped => .error (.unsupported type)
    | shape =>
      match shapeBytes? shape value with
      | some bytes => .ok (some bytes)
      | none => .error (.mismatch value type)

end Rowset.Wire
