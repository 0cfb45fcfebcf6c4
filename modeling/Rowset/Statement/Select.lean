import Rowset.Selection

/-!
# Statements that read

`Select` reads columns of a selection in an order, and counts the rows of the selection.
-/

namespace Rowset

/-- The directions of a sort. -/
inductive Direction where
  | ascending
  | descending
  deriving DecidableEq, Repr

/-- The word for a direction. -/
def Direction.word : Direction → String
  | .ascending => "ASC"
  | .descending => "DESC"

/-- Reads columns of a selection; without columns all of them. -/
structure Select where
  selection : Selection
  columns : List Name
  order : List (Name × Direction)

namespace Select

open Sql (Piece)

/-- Reads all columns of a selection, in no order. -/
def ofSelection (s : Selection) : Select :=
  ⟨s, [], []⟩

/-- Reads the given columns instead. -/
def withColumns (q : Select) (columns : List String) : Except Fault Select := do
  let names ← Name.parseAll columns
  pure { q with columns := names }

/-- Sorts by one more column. -/
def orderBy (q : Select) (column : String) (direction : Direction) : Except Fault Select := do
  let name ← Name.parse column
  pure { q with order := q.order ++ [(name, direction)] }

/-- The columns that are read. -/
def projection (q : Select) : List Piece :=
  if q.columns.isEmpty then [.words "*"] else Sql.nameList q.columns

/-- The ORDER BY clause. -/
def orderClause (q : Select) : List Piece :=
  if q.order.isEmpty then []
  else
    .words " ORDER BY " :: Sql.joined ", " (q.order.map fun (column, direction) =>
      [.name column, .words (" " ++ direction.word)])

/-- The pieces of the statement that reads the rows. -/
def render (q : Select) : List Piece :=
  .words "SELECT " :: q.projection ++ [.words " FROM ", .name q.selection.table] ++
    q.selection.whereClause ++ q.orderClause ++ q.selection.limitClause

/-- The statement that reads the rows. -/
def statement (q : Select) : Statement :=
  Sql.statement q.render

/-- The pieces of the statement that counts the rows. The rows of a limited selection are counted
where they have been taken. -/
def renderCount (q : Select) : List Piece :=
  [.words "SELECT COUNT(*) AS ", .name Sql.countName, .words " FROM "] ++
    if q.selection.isLimited then
      [.words "(SELECT * FROM ", .name q.selection.table] ++ q.selection.whereClause ++
        q.selection.limitClause ++ [.words ") AS ", .name Sql.nestedName]
    else .name q.selection.table :: q.selection.whereClause

/-- The statement that counts the rows. -/
def countStatement (q : Select) : Statement :=
  Sql.statement q.renderCount

end Select

end Rowset
