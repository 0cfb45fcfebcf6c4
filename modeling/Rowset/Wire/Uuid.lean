import Rowset.Text.Bytes

/-!
# The wire: universal identifiers

Sixteen bytes, written as hexadecimal digits in five groups. They are read in any case, in groups or
without them, and the grouped form also in braces or behind its scheme.
-/

namespace Rowset.Wire.Uuid

/-- Reads thirty-two digits without groups. -/
def readPlain? (cs : List Char) : Option (List UInt8) :=
  if cs.length = 32 then Text.bytesOfHex? cs else none

/-- Reads digits in groups of eight, four, four, four and twelve. -/
def readGrouped? (cs : List Char) : Option (List UInt8) :=
  let hyphens := [8, 13, 18, 23]
  if cs.length = 36 ∧ hyphens.all (fun i => cs[i]? == some '-') then
    readPlain? (cs.filter (· != '-'))
  else none

/-- Reads an identifier. -/
def read? (cs : List Char) : Option (List UInt8) :=
  let scheme := "urn:uuid:".toList
  if cs.length = 32 then readPlain? cs
  else if cs.length = 38 ∧ cs.head? = some '\x7b' ∧ cs.getLast? = some '\x7d' then
    readGrouped? ((cs.drop 1).take 36)
  else if cs.length = 45 ∧ (cs.take 9).map Char.toLower = scheme then readGrouped? (cs.drop 9)
  else readGrouped? cs

/-- Writes an identifier in groups. -/
def write (bytes : List UInt8) : String :=
  let digits := (Text.hexOfBytes bytes).toList
  let group (start length : Nat) : String := String.ofList ((digits.drop start).take length)
  String.intercalate "-" [group 0 8, group 8 4, group 12 4, group 16 4, group 20 12]

end Rowset.Wire.Uuid
