import Rowset.Record
import Rowset.Selection

/-!
# Statements that change rows

`Update` gives new values to columns of the rows of a selection; at least one column is needed.
-/

namespace Rowset

/-- Assigns values to columns of a selection. -/
structure Update where
  selection : Selection
  assignments : List (Name × Value)
  returning : Bool

namespace Update

open Sql (Piece)

/-- Assigns nothing yet. -/
def ofSelection (s : Selection) : Update :=
  ⟨s, [], false⟩

/-- Assigns a value to one more column. -/
def set (q : Update) (column : String) (value : Value) : Except Fault Update := do
  let name ← Name.parse column
  pure { q with assignments := q.assignments ++ [(name, value)] }

/-- Assigns the values of a record, in the order of its columns. -/
def setRecord (q : Update) (attributes : Record) : Except Fault Update :=
  attributes.entries.foldlM (fun q (column, value) => q.set column value) q

/-- Asks for the changed rows. -/
def returningAll (q : Update) : Update :=
  { q with returning := true }

/-- The pieces of the statement. -/
def render (q : Update) : List Piece :=
  [.words "UPDATE ", .name q.selection.table, .words " SET "] ++
    Sql.joined ", " (q.assignments.map fun (column, value) =>
      [.name column, .words " = ", .marker value]) ++
    q.selection.targetClause ++ returningClause q.returning q.selection.table

/-- What keeps the statement from being run. -/
def fault? (q : Update) : Option Fault :=
  if q.assignments.isEmpty then some (.validation "UpdateQb: SET clause cannot be empty") else none

/-- The statement, if it can be run. -/
def statement (q : Update) : Except Fault Statement :=
  match q.fault? with
  | some fault => .error fault
  | none => .ok (Sql.statement q.render)

end Update

end Rowset
