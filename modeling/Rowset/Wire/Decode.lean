import Rowset.Calendar
import Rowset.Fault
import Rowset.Json.Printer
import Rowset.Json.Source
import Rowset.Record
import Rowset.Text.Bytes
import Rowset.Wire.Numeric
import Rowset.Wire.SqlType
import Rowset.Wire.Uuid

/-!
# The wire: rows

A cell is read in the shape of its column's type. The bytes have to be of that shape as a whole; a
shape without a reading of its own gives the bytes themselves. A row becomes a record, in which the
last of several columns with one name counts, and the first cell that cannot be read ends the
reading.
-/

namespace Rowset.Wire

/-- A column of a result: its name and its type. -/
structure Column where
  name : String
  type : SqlType
  deriving DecidableEq, Repr

/-- The bytes of a cell; a missing value has none. -/
abbrev Cell := Option (List UInt8)

/-- An integer of two, four or eight bytes. -/
def integerOf? (width : Nat) (bytes : List UInt8) : Option Value :=
  if bytes.length = width then some (.int (Int64.ofInt (Text.ofBigEndianInt bytes))) else none

/-- A text. -/
def textOf? (bytes : List UInt8) : Option Value :=
  (Text.ofUtf8? bytes).map .text

/-- A structured value, as its compact text. -/
def structuredOf? (bytes : List UInt8) : Option Value := do
  let text ← Text.ofUtf8? bytes
  let json ← Json.parse? text
  pure (.text json.print)

/-- An instant, as its text with a mark for the zone behind it. -/
def instantOf? (zone : String) (bytes : List UInt8) : Option Value :=
  if bytes.length = 8 then
    (Calendar.instantText? (Text.ofBigEndianInt bytes)).map fun text => .text (text ++ zone)
  else none

/-- A date, as its text. -/
def dateOf? (bytes : List UInt8) : Option Value :=
  if bytes.length = 4 then
    let date := Calendar.Date.ofDays (Text.ofBigEndianInt bytes)
    if Calendar.yearInRange date.year then some (.text date.text) else none
  else none

/-- The value that the bytes of a shape stand for. -/
def valueOf? (shape : Shape) (bytes : List UInt8) : Option Value :=
  match shape with
  | .bool => match bytes with
    | [b] => some (.bool (b != 0))
    | _ => none
  | .int2 => integerOf? 2 bytes
  | .int4 => integerOf? 4 bytes
  | .int8 => integerOf? 8 bytes
  | .oid =>
    if bytes.length = 4 then some (.int (Int64.ofInt (Text.ofBigEndian bytes))) else none
  | .float4 =>
    if bytes.length = 4 then
      some (.float (.ofSingleBits (UInt32.ofNat (Text.ofBigEndian bytes))))
    else none
  | .float8 =>
    if bytes.length = 8 then some (.float (.ofWord (Text.ofBigEndian bytes))) else none
  | .numeric => (Numeric.ofWire? bytes).map fun x => .text x.text
  | .text => textOf? bytes
  | .labels _ => textOf? bytes
  | .bytes => some (.bytes bytes)
  | .unmapped => some (.bytes bytes)
  | .json => structuredOf? bytes
  | .jsonb => match bytes with
    | 1 :: bytes => structuredOf? bytes
    | _ => none
  | .uuid => if bytes.length = 16 then some (.text (Uuid.write bytes)) else none
  | .timestamp => instantOf? "" bytes
  | .timestamptz => instantOf? "Z" bytes
  | .date => dateOf? bytes

/-- The value of a cell of a column. The fault of a cell that cannot be read names the column; its
other words are arbitrary. -/
def decodeCell (column : Column) : Cell → Except Fault Value
  | none => .ok .null
  | some bytes =>
    match valueOf? column.type.shape bytes with
    | some value => .ok value
    | none => .error (.decode column.name ("the cell is not of type " ++ column.type.display))

/-- The record of a row. -/
def decodeRow (columns : List Column) (row : List Cell) : Except Fault Record := do
  let entries ← (columns.zip row).mapM fun (column, cell) => do
    let value ← decodeCell column cell
    pure (column.name, value)
  pure (Record.ofList entries)

/-- **The records of the rows of a result,** in order. No cell is read unless all rows have one cell
for each column; otherwise there is a fault of a query, with arbitrary words. -/
def decodeRows (columns : List Column) (rows : List (List Cell)) :
    Except Fault (List Record) :=
  if rows.all fun row => row.length == columns.length then rows.mapM (decodeRow columns)
  else .error (.query "a row does not have one cell for each column")

end Rowset.Wire
