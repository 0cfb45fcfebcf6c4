import Rowset.Filter.Compile
import Rowset.Statement.Select

/-!
# Scopes

A scope describes a set of rows as data: a table, a filter, sort keys, and how many rows are taken
after how many are passed over. `Scope.selection` turns the description into a selection, on which
all operations on the scope agree; only reading uses the sort keys.
-/

namespace Rowset

/-- A column to sort by, with a direction. -/
structure SortKey where
  column : String
  direction : Direction
  deriving DecidableEq, Repr

/-- The description of a set of rows. -/
structure Scope where
  table : String
  filter : Option Filter
  order : List SortKey
  limit : Option Nat
  skip : Option Nat

namespace Scope

/-- All rows of a table. -/
def ofTable (table : String) : Scope :=
  ⟨table, none, [], none, none⟩

/-- The position of the first sort key without a column. -/
def blankKey? (scope : Scope) : Option Nat :=
  scope.order.findIdx? fun key => Text.trim key.column == ""

/-- What is wrong with a scope before anything is compiled. -/
def fault? (scope : Scope) : Option Fault :=
  if Text.trim scope.table = "" then some (.invalidScope "table name must not be empty")
  else scope.blankKey?.map fun i =>
    .invalidScope ("order entry " ++ toString i ++ " has an empty key")

/-- Checks a scope before anything is compiled. -/
def validate (scope : Scope) : Except Fault Unit :=
  match scope.fault? with
  | some fault => .error fault
  | none => .ok ()

/-- **The selection of a scope:** the table is read as a name, the filter is compiled into the
restriction, and the numbers of rows are taken over. -/
def selection (scope : Scope) : Filter.Outcome Selection := do
  let table ← Filter.Outcome.ofExcept (do scope.validate; Name.parse scope.table)
  let selection ←
    match scope.filter with
    | some filter => (Selection.ofTable table).applyFilter filter
    | none => pure (Selection.ofTable table)
  pure { selection with limit := scope.limit, offset := scope.skip }

/-- Sorts a reading by the keys of a scope, in sequence. -/
def applyOrder (scope : Scope) (query : Select) : Except Fault Select :=
  scope.order.foldlM (fun query key => query.orderBy key.column key.direction) query

end Scope

end Rowset
