import Rowset.Filter
import Rowset.Selection

/-!
# Filters: compilation

A filter is compiled to the conditions that it adds to a WHERE clause. Columns are read as names and
deferred filters are resolved on the way, depth first and left to right; the first failure ends the
compilation. A disjunction with a branch that restricts nothing restricts nothing itself, and the
branches after that one are not looked at.
-/

namespace Rowset.Filter

/-- What became of a compilation: the tickets of the deferred filters that were resolved, in order,
and the result. -/
structure Outcome (α : Type) where
  resolved : List Nat
  result : Except Fault α

namespace Outcome

variable {α β : Type}

/-- The outcome of a step that resolves nothing. -/
def ofExcept (result : Except Fault α) : Outcome α :=
  ⟨[], result⟩

/-- Goes on after a step, unless it failed. -/
def andThen (o : Outcome α) (next : α → Outcome β) : Outcome β :=
  match o.result with
  | .ok a => ⟨o.resolved ++ (next a).resolved, (next a).result⟩
  | .error fault => ⟨o.resolved, .error fault⟩

instance : Monad Outcome where
  pure a := ofExcept (.ok a)
  bind := andThen

/-- An outcome after the resolution of one more deferred filter. -/
def after (ticket : Nat) (o : Outcome α) : Outcome α :=
  ⟨ticket :: o.resolved, o.result⟩

end Outcome

/-- The one condition that some conditions come to, if there are any. -/
def collapse (conditions : List Condition) : Option Condition :=
  (Conjunction.ofList conditions).condition?

/-- A condition on one column, whose text is read as a name. -/
def onColumn (column : String) (condition : Name → Condition) : Outcome (List Condition) :=
  .ofExcept ((Name.parse column).map fun name => [condition name])

/-- The equalities that a record stands for. -/
def equalities (record : Record) : Except Fault (List Condition) :=
  record.entries.mapM fun (column, value) => do
    let name ← Name.parse column
    pure (.equals name value)

mutual

/-- **The conditions that a filter adds,** all of which have to hold. -/
def conjuncts : Filter → Outcome (List Condition)
  | .properties record => .ofExcept (equalities record)
  | .all members => memberConditions members
  | .any members => do
    match ← branches members with
    | some (c :: cs) => pure [.any (c :: cs)]
    | _ => pure []
  | .not inner => do
    match collapse (← conjuncts inner) with
    | some c => pure [.not c]
    | none => pure [.never]
  | .oneOf column values => onColumn column fun name => .oneOf name values
  | .noneOf column values => onColumn column fun name => .noneOf name values
  | .missing column => onColumn column fun name => .null name false
  | .present column => onColumn column fun name => .null name true
  | .between column low high => onColumn column fun name => .between name low high false
  | .outside column low high => onColumn column fun name => .between name low high true
  | .bounded side column value => onColumn column fun name => .compare name (.bound side) value
  | .fragment sql bindings => pure [.fragment sql bindings]
  | .deferred ticket (.ok filter) => (conjuncts filter).after ticket
  | .deferred ticket (.error fault) => ⟨[ticket], .error fault⟩

/-- The conditions of the members of a conjunction, one for each that restricts something. -/
def memberConditions : List Filter → Outcome (List Condition)
  | [] => pure []
  | member :: members => do
    let condition := collapse (← conjuncts member)
    let conditions ← memberConditions members
    pure (condition.toList ++ conditions)

/-- The conditions of the branches of a disjunction, or nothing if one of them restricts nothing. -/
def branches : List Filter → Outcome (Option (List Condition))
  | [] => pure (some [])
  | member :: members => do
    match collapse (← conjuncts member) with
    | some condition =>
      let conditions ← branches members
      pure (conditions.map (condition :: ·))
    | none => pure none

end

/-- **The condition that a filter comes to,** if it restricts anything. -/
def compile (filter : Filter) : Outcome (Option Condition) := do
  pure (collapse (← filter.conjuncts))

end Rowset.Filter

namespace Rowset.Selection

/-- Restricts a selection to the rows that a filter means. -/
def applyFilter (s : Selection) (filter : Filter) : Filter.Outcome Selection := do
  pure ((← filter.conjuncts).foldl restrict s)

end Rowset.Selection
