import Rowset.Sql

/-!
# Conditions

The predicate tree of a WHERE clause: connectives over comparisons, null checks, membership, ranges
and fragments of the caller. `render` writes a condition as pieces of a statement. A group is set in
parentheses where it stands beside others and has more than one member with content, a fragment
wherever it stands beside others.
-/

namespace Rowset

/-- The sides on which a value bounds a column. -/
inductive Side where
  | above
  | atLeast
  | below
  | atMost
  deriving DecidableEq, Repr

/-- The comparisons of a column with a value. -/
inductive Comparison where
  | equal
  | bound (side : Side)
  deriving DecidableEq, Repr

/-- The sign of a comparison. -/
def Comparison.sign : Comparison → String
  | .equal => "="
  | .bound .above => ">"
  | .bound .atLeast => ">="
  | .bound .below => "<"
  | .bound .atMost => "<="

/-- A predicate on rows. -/
inductive Condition where
  /-- All members hold. -/
  | all (members : List Condition)
  /-- At least one member holds. -/
  | any (members : List Condition)
  /-- The inner condition does not hold. -/
  | not (inner : Condition)
  /-- A column compares with a value. -/
  | compare (column : Name) (op : Comparison) (value : Value)
  /-- A column is missing, or is not. -/
  | null (column : Name) (negated : Bool)
  /-- A column is one of some values, or is none of them. -/
  | memberOf (column : Name) (values : List Value) (negated : Bool)
  /-- A column lies between two values, or does not. -/
  | between (column : Name) (low high : Value) (negated : Bool)
  /-- A fragment of the caller with values for its markers. -/
  | fragment (sql : String) (bindings : List Value)
  /-- Holds of every row. -/
  | always
  /-- Holds of no row. -/
  | never

namespace Condition

/-- A column equals a value; for the missing value this is a null check. -/
def equals (column : Name) : Value → Condition
  | .null => .null column false
  | value => .compare column .equal value

/-- A column is one of some values, which holds of no row when there are none. -/
def oneOf (column : Name) (values : List Value) : Condition :=
  if values.isEmpty then .never else .memberOf column values false

/-- A column is none of some values, which holds of every row when there are none. -/
def noneOf (column : Name) (values : List Value) : Condition :=
  if values.isEmpty then .always else .memberOf column values true

mutual

/-- Holds of the conditions that are built of groups and negations alone. -/
def isEmpty : Condition → Bool
  | .all members => areEmpty members
  | .any members => areEmpty members
  | .not inner => inner.isEmpty
  | _ => false

/-- Holds of the lists of empty conditions. -/
def areEmpty : List Condition → Bool
  | [] => true
  | member :: members => member.isEmpty && areEmpty members

end

/-- How many members of a group have content. -/
def contentCount (members : List Condition) : Nat :=
  members.countP fun member => !member.isEmpty

/-- Holds of the conditions that have to be set apart from those beside them. -/
def isCompound : Condition → Bool
  | .all members => 1 < contentCount members
  | .any members => 1 < contentCount members
  | .fragment .. => true
  | _ => false

open Sql (Piece)

/-- A column, the words of a test, and what the column is tested against. -/
def test (column : Name) (words : String) (operands : List Piece) : List Piece :=
  .name column :: .words words :: operands

/-- One word for a test and another for its negation. -/
def worded (negated : Bool) (yes no : String) : String :=
  if negated then no else yes

mutual

/-- **The pieces of a condition.** Nothing is written for the negation of a condition without
text. -/
def render : Condition → List Piece
  | .all members => Sql.joined " AND " (renderMembers (contentCount members == 1) members)
  | .any members => Sql.joined " OR " (renderMembers (contentCount members == 1) members)
  | .not inner =>
    let pieces := inner.render
    if Sql.isBlank pieces then pieces else .words "NOT " :: Sql.parenthesized pieces
  | .compare column op value => test column (" " ++ op.sign ++ " ") [.marker value]
  | .null column negated => test column (worded negated " IS NULL" " IS NOT NULL") []
  | .memberOf column values negated =>
    if values.isEmpty then [.words (worded negated "1=0" "1=1")]
    else
      test column (worded negated " IN " " NOT IN ")
        (Sql.parenthesized (Sql.joined ", " (values.map fun value => [.marker value])))
  | .between column low high negated =>
    test column (worded negated " BETWEEN " " NOT BETWEEN ")
      [.marker low, .words " AND ", .marker high]
  | .fragment sql bindings => [.fragment sql bindings]
  | .always => [.words "1=1"]
  | .never => [.words "1=0"]

/-- The parts of a group: its members with content, a compound one in parentheses unless it stands
alone. -/
def renderMembers (alone : Bool) : List Condition → List (List Piece)
  | [] => []
  | member :: members =>
    if member.isEmpty then renderMembers alone members
    else if !alone && member.isCompound then
      Sql.parenthesized member.render :: renderMembers alone members
    else member.render :: renderMembers alone members

end

end Condition

/-- Conditions that have to hold together; an empty one is never taken in. -/
structure Conjunction where
  members : List Condition

namespace Conjunction

/-- The conjunction without members. -/
def empty : Conjunction := ⟨[]⟩

/-- Takes in a condition, unless it is empty. -/
def and (g : Conjunction) (c : Condition) : Conjunction :=
  if c.isEmpty then g else ⟨g.members ++ [c]⟩

/-- The conjunction of some conditions. -/
def ofList (cs : List Condition) : Conjunction :=
  cs.foldl and empty

/-- Holds of the conjunctions without content. -/
def isEmpty (g : Conjunction) : Bool :=
  Condition.areEmpty g.members

/-- The one condition that a conjunction comes to, if it has members. -/
def condition? (g : Conjunction) : Option Condition :=
  match g.members with
  | [] => none
  | [c] => some c
  | cs => some (.all cs)

/-- The pieces of a conjunction. -/
def render (g : Conjunction) : List Sql.Piece :=
  (Condition.all g.members).render

end Conjunction

end Rowset
