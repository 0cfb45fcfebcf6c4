import Rowset.Binary.Double
import Rowset.Text.Integer

/-!
# Binary numbers: reading decimal text

An optional sign, digits with at most one point among or beside them, and an optional exponent; or
one of the words for an infinity or for what is no number, in any case. The double read is the
nearest one.
-/

namespace Rowset.Binary

/-- Splits a text at its exponent mark and reads the exponent, which is zero where none is
written. -/
def splitExponent? (cs : List Char) : Option (List Char × Int) :=
  let mantissa := cs.takeWhile fun c => c != 'e' && c != 'E'
  match cs.drop mantissa.length with
  | [] => some (mantissa, 0)
  | _ :: exponent => (Text.readInt? exponent).map fun e => (mantissa, e)

/-- Reads digits with at most one point, as the number without the point and the count of digits
after it. -/
def readPlaces? (cs : List Char) : Option (Nat × Nat) :=
  let whole := cs.takeWhile Char.isDigit
  let fraction? := match cs.drop whole.length with
    | [] => some []
    | '.' :: fraction => some fraction
    | _ => none
  match fraction? with
  | none => none
  | some fraction => (Text.readNat? (whole ++ fraction)).map fun n => (n, fraction.length)

/-- Reads an unsigned number or one of the words for what is not finite. -/
def readMagnitude? (negative : Bool) (cs : List Char) : Option Double :=
  let word := cs.map Char.toLower
  if word = "inf".toList ∨ word = "infinity".toList then some (.infinite negative)
  else if word = "nan".toList then some (.nan negative)
  else do
    let (mantissa, exponent) ← splitExponent? cs
    let (digits, places) ← readPlaces? mantissa
    pure (.ofDecimal negative digits (exponent - places))

/-- Reads a decimal number with at most one sign before it. -/
def Double.read? : List Char → Option Double
  | '-' :: cs => readMagnitude? true cs
  | '+' :: cs => readMagnitude? false cs
  | cs => readMagnitude? false cs

end Rowset.Binary
