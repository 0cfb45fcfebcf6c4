import Rowset.Selection

/-!
# Statements that remove rows

`Delete` removes the rows of a selection.
-/

namespace Rowset

/-- Removes the rows of a selection. -/
structure Delete where
  selection : Selection
  returning : Bool

namespace Delete

/-- Removes the rows of a selection and asks for nothing back. -/
def ofSelection (s : Selection) : Delete :=
  ⟨s, false⟩

/-- Asks for the removed rows. -/
def returningAll (q : Delete) : Delete :=
  { q with returning := true }

/-- The pieces of the statement. -/
def render (q : Delete) : List Sql.Piece :=
  [.words "DELETE FROM ", .name q.selection.table] ++ q.selection.targetClause ++
    returningClause q.returning q.selection.table

/-- The statement. -/
def statement (q : Delete) : Statement :=
  Sql.statement q.render

end Delete

end Rowset
