import Rowset.Condition
import Rowset.Record

/-!
# Filters

The language in which a caller says which rows are meant. A filter speaks of columns by their
texts, which need not be names; they are read as names when the filter is compiled. A deferred
filter stands for one that is found out only then: it carries a ticket, by which its resolution can
be told apart from others, and what it resolves to.
-/

namespace Rowset

/-- A filter on rows. -/
inductive Filter where
  /-- Every column of the record equals its value. -/
  | properties (record : Record)
  /-- All members hold. -/
  | all (members : List Filter)
  /-- At least one member holds; without members every row is meant. -/
  | any (members : List Filter)
  /-- The inner filter does not hold. -/
  | not (inner : Filter)
  /-- A column is one of some values. -/
  | oneOf (column : String) (values : List Value)
  /-- A column is none of some values. -/
  | noneOf (column : String) (values : List Value)
  /-- A column is missing. -/
  | missing (column : String)
  /-- A column is not missing. -/
  | present (column : String)
  /-- A column lies between two values. -/
  | between (column : String) (low high : Value)
  /-- A column does not lie between two values. -/
  | outside (column : String) (low high : Value)
  /-- A column is bounded by a value. -/
  | bounded (side : Side) (column : String) (value : Value)
  /-- A fragment of the caller with values for its markers. -/
  | fragment (sql : String) (bindings : List Value)
  /-- A filter that is found out at compilation. -/
  | deferred (ticket : Nat) (outcome : Except Fault Filter)

/-- The filter that a column equals a value. -/
def Filter.equals (column : String) (value : Value) : Filter :=
  .properties (Record.empty.insert column value)

end Rowset
