import Rowset.Request.Log
import Rowset.Scope
import Rowset.Statement.Delete
import Rowset.Statement.Insert
import Rowset.Statement.Update

/-!
# Requests

What a caller can ask for. A request is planned before anything is sent: the plan is one statement,
or nothing to send, or the first fault that was found. What comes back is a list of records or, for
a count, a number.
-/

namespace Rowset

/-- An operation on rows. -/
inductive Request where
  /-- Read all columns. -/
  | query (scope : Scope)
  /-- Count the rows. -/
  | count (scope : Scope)
  /-- Read some columns. -/
  | select (scope : Scope) (columns : List String)
  /-- Give values to columns. -/
  | updateAll (scope : Scope) (attributes : Record)
  /-- Remove the rows. -/
  | deleteAll (scope : Scope)
  /-- Add records to a table. The kinds of keys are only logged. -/
  | insertAll (table : String) (records : List Record) (keys : List (String × KeyKind))
  /-- Run a text of the caller. -/
  | execute (sql : String)

/-- What a request answers. -/
inductive Reply where
  | rows (records : List Record)
  | count (n : Nat)
  deriving DecidableEq

/-- What is to be sent for a request. -/
inductive Plan where
  | nothing
  | send (statement : Statement)
  deriving DecidableEq, Repr

namespace Request

/-- The statement that reads columns of a scope, in its order. -/
def planSelect (scope : Scope) (columns : List String) : Except Fault Plan := do
  let selection ← scope.selection.result
  let query ← (Select.ofSelection selection).withColumns columns
  let query ← scope.applyOrder query
  pure (.send query.statement)

/-- The statement that counts the rows of a scope. -/
def planCount (scope : Scope) : Except Fault Plan := do
  let selection ← scope.selection.result
  pure (.send (Select.ofSelection selection).countStatement)

/-- The statement that changes the rows of a scope; there has to be something to change. -/
def planUpdate (scope : Scope) (attributes : Record) : Except Fault Plan := do
  if attributes.isEmpty then
    throw (.validation "update_all requires at least one attribute")
  let selection ← scope.selection.result
  let query ← (Update.ofSelection selection).setRecord attributes
  let statement ← query.returningAll.statement
  pure (.send statement)

/-- The statement that removes the rows of a scope. -/
def planDelete (scope : Scope) : Except Fault Plan := do
  let selection ← scope.selection.result
  pure (.send (Delete.ofSelection selection).returningAll.statement)

/-- The statement that adds records. Nothing is sent when there are none. -/
def planInsert (table : String) (records : List Record) : Except Fault Plan := do
  let name ← Name.parse table
  if records.isEmpty then pure .nothing
  else
    let query ← (Insert.ofTable name).withRecords records
    let statement ← query.returningAll.statement
    pure (.send statement)

/-- **What is to be sent for a request,** or why nothing can be. -/
def plan : Request → Except Fault Plan
  | .query scope => planSelect scope []
  | .count scope => planCount scope
  | .select scope columns => planSelect scope columns
  | .updateAll scope attributes => planUpdate scope attributes
  | .deleteAll scope => planDelete scope
  | .insertAll table records _ => planInsert table records
  | .execute _ => .error (.unsupported "raw execute")

/-- What is logged before a request is planned to its end: that records are about to be added. -/
def announcement : Request → List Event
  | .insertAll table records keys =>
    match Name.parse table with
    | .ok _ => if records.isEmpty then [] else [.insertion table records.length keys]
    | .error _ => []
  | _ => []

/-- The value of a row that counts: that of the column `count`, or else of the first column. -/
def countedValue? (row : Record) : Option Value :=
  (row.get? "count").or (row.entries.head?.map (·.2))

/-- The count that the rows of a count statement give. -/
def readCount (rows : List Record) : Except Fault Nat :=
  match rows with
  | [] => .error (.internal "count query returned no rows")
  | row :: _ =>
    match countedValue? row with
    | none => .error (.internal "count query returned an empty row")
    | some value =>
      match value.integer? with
      | some n =>
        if 0 ≤ n.toInt then .ok n.toInt.toNat
        else .error (.internal ("count query returned non-count value " ++ value.display))
      | none => .error (.internal ("count query returned non-count value " ++ value.display))

/-- What a request answers when these rows have come back. -/
def reply (request : Request) (rows : List Record) : Except Fault Reply :=
  match request with
  | .count _ => (readCount rows).map .count
  | _ => .ok (.rows rows)

end Request

end Rowset
