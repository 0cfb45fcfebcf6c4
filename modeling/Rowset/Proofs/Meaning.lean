import Rowset.Filter.Compile
import Rowset.Proofs.Truth

/-!
# What conditions and filters mean

A row gives truth values to the tests that a condition can make, and the connectives carry them up
the tree (`Condition.value`). A filter is given its meaning on its own (`Filter.value`), by the same
row: its columns are texts, and a test on a text that is no name has whatever value `stray` gives
it.
-/

namespace Rowset

/-- A row, as the tests of a condition see it. Nothing ties the tests to each other: a comparison
may be unknown, and the tests of one column need not agree. -/
structure Row where
  /-- How a column compares with a value. -/
  compares : Name → Comparison → Value → Truth
  /-- Whether a column is missing. -/
  missing : Name → Bool
  /-- What a fragment of the caller comes to with its values. -/
  fragment : String → List Value → Truth

namespace Row

/-- A column has a value; for the missing value it has to be missing. -/
def hasValue (row : Row) (column : Name) : Value → Truth
  | .null => .ofBool (row.missing column)
  | value => row.compares column .equal value

/-- A column equals one of some values. -/
def isOneOf (row : Row) (column : Name) (values : List Value) : Truth :=
  .any (values.map (row.compares column .equal))

/-- A column lies between two values, the two included. -/
def isBetween (row : Row) (column : Name) (low high : Value) : Truth :=
  (row.compares column (.bound .atLeast) low).and (row.compares column (.bound .atMost) high)

end Row

namespace Condition

mutual

/-- **The value of a condition on a row.** Groups range over their members with content. -/
def value (row : Row) : Condition → Truth
  | .all members => .all (memberValues row members)
  | .any members => .any (memberValues row members)
  | .not inner => (inner.value row).not
  | .compare column op value => row.compares column op value
  | .null column negated => .negatedIf negated (.ofBool (row.missing column))
  | .memberOf column values negated => .negatedIf negated (row.isOneOf column values)
  | .between column low high negated => .negatedIf negated (row.isBetween column low high)
  | .fragment sql bindings => row.fragment sql bindings
  | .always => .yes
  | .never => .no

/-- The values of the members with content. -/
def memberValues (row : Row) : List Condition → List Truth
  | [] => []
  | member :: members =>
    if member.isEmpty then memberValues row members
    else member.value row :: memberValues row members

end

theorem memberValues_eq_map (row : Row) : ∀ {cs : List Condition}, (∀ c ∈ cs, c.isEmpty = false) →
    memberValues row cs = cs.map (value row)
  | [], _ => by simp [memberValues]
  | c :: cs, h => by
    have hc : c.isEmpty = false := h c List.mem_cons_self
    have ih := memberValues_eq_map row fun c' hc' => h c' (List.mem_cons_of_mem c hc')
    rw [memberValues, if_neg (by rw [hc]; decide), ih, List.map_cons]

end Condition

namespace Filter

/-- The value of a test on a column that is given by its text. -/
def testValue (column : String) (stray : Truth) (test : Name → Truth) : Truth :=
  match Name.parse column with
  | .ok name => test name
  | .error _ => stray

/-- The value of the filter that a column has a value. -/
def entryValue (row : Row) (stray : Filter → Truth) (entry : String × Value) : Truth :=
  testValue entry.1 (stray (.equals entry.1 entry.2)) fun name => row.hasValue name entry.2

mutual

/-- **The value of a filter on a row.** A test that no condition can stand for, because its column
is no name or it is never found out, has the value that `stray` gives it. -/
def value (row : Row) (stray : Filter → Truth) : Filter → Truth
  | .properties record => .all (record.entries.map (entryValue row stray))
  | .all members => .all (values row stray members)
  | .any members => if members.isEmpty then .yes else .any (values row stray members)
  | .not inner => (inner.value row stray).not
  | .oneOf column values =>
    testValue column (stray (.oneOf column values)) fun name => row.isOneOf name values
  | .noneOf column values =>
    testValue column (stray (.noneOf column values)) fun name => (row.isOneOf name values).not
  | .missing column =>
    testValue column (stray (.missing column)) fun name => .ofBool (row.missing name)
  | .present column =>
    testValue column (stray (.present column)) fun name => .ofBool !row.missing name
  | .between column low high =>
    testValue column (stray (.between column low high)) fun name => row.isBetween name low high
  | .outside column low high =>
    testValue column (stray (.outside column low high)) fun name =>
      (row.isBetween name low high).not
  | .bounded side column value =>
    testValue column (stray (.bounded side column value)) fun name =>
      row.compares name (.bound side) value
  | .fragment sql bindings => row.fragment sql bindings
  | .deferred _ (.ok filter) => filter.value row stray
  | .deferred ticket (.error fault) => stray (.deferred ticket (.error fault))

/-- The values of some filters. -/
def values (row : Row) (stray : Filter → Truth) : List Filter → List Truth
  | [] => []
  | member :: members => member.value row stray :: values row stray members

end

end Filter

end Rowset
