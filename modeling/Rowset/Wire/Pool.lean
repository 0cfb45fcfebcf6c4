import Rowset.Fault
import Rowset.Wire.Address

/-!
# The wire: pools

A pool of connections is made for the address of a database. The address is checked when the pool is
made, and no connection is made then.
-/

namespace Rowset.Wire

/-- A pool of connections. -/
structure Pool where
  address : String
  maxSize : Nat
  deriving DecidableEq, Repr

/-- How many connections a pool has where nothing else is said. -/
def Pool.standardSize : Nat := 16

/-- Makes a pool for an address. The words of the fault of an address that is not valid are
arbitrary. -/
def Pool.create (address : String) (maxSize : Nat) : Except Fault Pool :=
  if Address.isValid address then .ok ⟨address, maxSize⟩
  else .error (.connection "invalid connection string")

end Rowset.Wire
