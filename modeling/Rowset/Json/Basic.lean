import Rowset.Binary.Double

/-!
# Json: values

The members of an object that was read are sorted by key and no key is repeated. A number is an
integer when it was written as a plain run of digits that fits 64 bits, and a double otherwise.
-/

namespace Rowset

namespace Json

/-- A number: an integer of 64 bits, signed or not, or a double. -/
inductive Number where
  | integer (value : Int)
  | real (value : Binary.Double)
  deriving DecidableEq, Repr

end Json

/-- A structured value. -/
inductive Json where
  | null
  | bool (value : Bool)
  | number (value : Json.Number)
  | string (text : String)
  | array (items : List Json)
  | object (members : List (String × Json))

end Rowset
