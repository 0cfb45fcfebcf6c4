import Rowset.Name
import Rowset.Sql
import Rowset.Value.Printer

/-!
# Binding

A statement is bound by giving its markers the names `param0`, `param1`, …, each with a value. It
can be bound when it has as many markers as values. The parameters of a bound statement are kept as
values in order; the names follow from the positions (`Parameters.name`).
-/

namespace Rowset

/-- The values of a bound statement, named by position. -/
structure Parameters where
  values : List Value
  deriving DecidableEq, Repr

namespace Parameters

/-- No parameters. -/
def empty : Parameters := ⟨[]⟩

/-- The name of the parameter at a position. -/
def name (position : Nat) : String :=
  "param" ++ toString position

/-- The name that the next parameter gets. -/
def nextName (ps : Parameters) : String :=
  name ps.values.length

/-- Appends a parameter. -/
def push (ps : Parameters) (value : Value) : Parameters :=
  ⟨ps.values ++ [value]⟩

/-- How many parameters there are. -/
def length (ps : Parameters) : Nat :=
  ps.values.length

/-- The parameters with their names, in order. -/
def entries (ps : Parameters) : List (String × Value) :=
  ps.values.zipIdx.map fun (value, i) => (name i, value)

/-- The position of the parameter with a name. -/
def position? (ps : Parameters) (wanted : String) : Option Nat :=
  ps.entries.findIdx? fun (name, _) => name == wanted

/-- The value of the parameter with a name. -/
def get? (ps : Parameters) (wanted : String) : Option Value :=
  ps.entries.lookup wanted

/-- The parameters as the text of an object, in order. -/
def json (ps : Parameters) : String :=
  (Json.object (ps.entries.map fun (name, value) => (name, value.toJson))).print

end Parameters

/-- A statement with named placeholders and the parameters for them. -/
structure Bound where
  sql : String
  params : Parameters
  deriving DecidableEq, Repr

/-- A statement has more or fewer markers than values. -/
structure Mismatch where
  markers : Nat
  bindings : Nat
  deriving DecidableEq, Repr

/-- The words for a mismatch. -/
def Mismatch.message (m : Mismatch) : String :=
  "statement has " ++ toString m.markers ++ " placeholders but " ++ toString m.bindings ++
    " bindings"

namespace Statement

/-- How many markers a statement has. -/
def markerCount (s : Statement) : Nat :=
  s.sql.toList.count '?'

/-- Puts the placeholder of the next parameter in the place of each marker. -/
def nameMarkers (position : Nat) : List Char → List Char
  | [] => []
  | c :: cs =>
    if c = '?' then ':' :: (Parameters.name position).toList ++ nameMarkers (position + 1) cs
    else c :: nameMarkers position cs

/-- **Binds the markers of a statement,** from left to right, to its values in order. -/
def bind (s : Statement) : Except Mismatch Bound :=
  if s.markerCount = s.bindings.length then
    .ok ⟨String.ofList (nameMarkers 0 s.sql.toList), ⟨s.bindings⟩⟩
  else .error ⟨s.markerCount, s.bindings.length⟩

end Statement

end Rowset
