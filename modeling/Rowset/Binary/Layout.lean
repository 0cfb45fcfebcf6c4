import Rowset.Binary.Shortest
import Rowset.Text.Integer

/-!
# Binary numbers: their texts

A layout says how the shortest decimal of a double is written: which numbers are positional, whether
an integral one keeps a fraction, how the exponent is signed. `Layout.write` follows a layout.
-/

namespace Rowset.Binary

/-- The decisions of a number format. -/
structure Layout where
  /-- Holds of the exponents of the leading digit that are written without an exponent. -/
  positional : Int → Bool
  /-- An integral number in positional form keeps `.0`. -/
  fraction : Bool
  /-- A positive exponent has a `+`. -/
  plus : Bool
  /-- Which of two equally near decimals is taken. -/
  tie : Tie

namespace Layout

/-- Zeros on either side fill the places between the digits and the decimal point. -/
def writePositional (l : Layout) (digits : List Char) (exponent : Int) : List Char :=
  if 0 ≤ exponent then
    digits ++ List.replicate exponent.natAbs '0' ++ (if l.fraction then ['.', '0'] else [])
  else
    let places := exponent.natAbs
    let padded := List.replicate (places + 1 - digits.length) '0' ++ digits
    padded.take (padded.length - places) ++ '.' :: padded.drop (padded.length - places)

/-- One digit stands before the decimal point, which is left out when nothing follows it. -/
def writeScientific (l : Layout) (digits : List Char) (order : Int) : List Char :=
  let mantissa := match digits with
    | [d] => [d]
    | d :: ds => d :: '.' :: ds
    | [] => []
  let sign := if 0 ≤ order ∧ l.plus then ['+'] else []
  mantissa ++ 'e' :: sign ++ (Text.ofInt order).toList

/-- The text of a positive decimal. -/
def writeDecimal (l : Layout) (d : Decimal) : List Char :=
  let digits := Nat.toDigits 10 d.digits
  let order := d.exponent + (digits.length - 1 : Nat)
  if d.digits = 0 ∨ l.positional order then l.writePositional digits d.exponent
  else l.writeScientific digits order

/-- **The text of a double in a layout.** -/
def write (l : Layout) (x : Double) : String :=
  match x.datum with
  | .nan _ => "NaN"
  | .infinite negative => if negative then "-inf" else "inf"
  | .finite negative m e =>
    let decimal : Decimal := if m = 0 then ⟨0, 0⟩ else (Interval.ofDatum m e).shortest l.tie
    let text := l.writeDecimal decimal
    String.ofList (if negative then '-' :: text else text)

end Layout

end Rowset.Binary
