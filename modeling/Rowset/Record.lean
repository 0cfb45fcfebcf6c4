import Rowset.Keyed
import Rowset.Value

/-!
# Records

A record gives values to finitely many columns: it is a row that was read, or the attributes of a
row to write. Its entries are sorted by column and no column is repeated, so records with the same
values in the same columns are equal.
-/

namespace Rowset

/-- Values by column, sorted by column name. -/
structure Record where
  entries : List (String × Value)
  sorted : Keyed.Sorted entries

namespace Record

instance : DecidableEq Record := fun a b =>
  decidable_of_iff (a.entries = b.entries)
    ⟨fun h => by cases a; cases b; cases h; rfl, fun h => h ▸ rfl⟩

/-- The record without columns. -/
def empty : Record := ⟨[], List.Pairwise.nil⟩

instance : Inhabited Record := ⟨empty⟩

/-- The record of some entries; of several for one column the last one stays. -/
def ofList (entries : List (String × Value)) : Record :=
  ⟨Keyed.ofList entries, Keyed.sorted_ofList entries⟩

/-- Sets the value of a column. -/
def insert (r : Record) (column : String) (value : Value) : Record :=
  ⟨Keyed.insert column value r.entries, Keyed.sorted_insert column value r.sorted⟩

/-- The value of a column. -/
def get? (r : Record) (column : String) : Option Value :=
  r.entries.lookup column

/-- The columns in order. -/
def columns (r : Record) : List String :=
  r.entries.map (·.1)

/-- Holds of the record without columns. -/
def isEmpty (r : Record) : Bool :=
  r.entries.isEmpty

end Record

end Rowset
