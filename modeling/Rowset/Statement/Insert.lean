import Rowset.Record
import Rowset.Selection

/-!
# Statements that add rows

`Insert` adds records to a table. Its columns are those that any of the records has, in order, and a
record that lacks one of them takes the default of the table there.
-/

namespace Rowset

/-- Adds records to a table. Each key that a record has stands beside the name that it reads as. -/
structure Insert where
  table : Name
  columns : List (String × Name)
  records : List Record
  returning : Bool

namespace Insert

open Sql (Piece)

/-- Adds nothing yet. -/
def ofTable (table : Name) : Insert :=
  ⟨table, [], [], false⟩

/-- The columns that any of the records has, sorted and without repetition. -/
def keys (records : List Record) : List String :=
  (Keyed.ofList (records.flatMap fun r => r.columns.map fun column => (column, ()))).map (·.1)

/-- Adds the given records instead. -/
def withRecords (q : Insert) (records : List Record) : Except Fault Insert := do
  let columns ← (keys records).mapM fun key => do
    let name ← Name.parse key
    pure (key, name)
  pure { q with columns, records }

/-- Asks for the added rows. -/
def returningAll (q : Insert) : Insert :=
  { q with returning := true }

/-- How many rows are added. -/
def rowCount (q : Insert) : Nat :=
  q.records.length

/-- What stands for a column in the tuple of a record. -/
def slot (r : Record) (key : String) : List Piece :=
  match r.get? key with
  | some value => [.marker value]
  | none => [.words "DEFAULT"]

/-- The tuple of a record. -/
def tuple (q : Insert) (r : Record) : List Piece :=
  Sql.parenthesized (Sql.joined ", " (q.columns.map fun (key, _) => slot r key))

/-- The pieces of the statement. -/
def render (q : Insert) : List Piece :=
  [.words "INSERT INTO ", .name q.table] ++
    (if q.columns.isEmpty then [.words " DEFAULT VALUES"]
    else
      .words " " :: Sql.parenthesized (Sql.nameList (q.columns.map (·.2))) ++
        .words " VALUES " :: Sql.joined ", " (q.records.map q.tuple)) ++
    returningClause q.returning q.table

/-- What keeps the statement from being run. -/
def fault? (q : Insert) : Option Fault :=
  if q.records.isEmpty then some (.validation "InsertQb: no records to insert")
  else if q.columns.isEmpty ∧ 1 < q.records.length then
    some (.validation
      "InsertQb: records without columns can only be inserted one at a time")
  else none

/-- The statement, if it can be run. -/
def statement (q : Insert) : Except Fault Statement :=
  match q.fault? with
  | some fault => .error fault
  | none => .ok (Sql.statement q.render)

end Insert

end Rowset
