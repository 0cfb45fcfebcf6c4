import Rowset.Binary.Format

/-!
# Binary numbers: doubles

The numbers of eight bytes, kept as their bits, so that two of them are equal exactly when their
bits are. Conversions to and from integers and to and from numbers of four bytes are exact or round
to nearest.
-/

namespace Rowset.Binary

/-- A number of the double format, as its bits. -/
structure Double where
  bits : UInt64
  deriving DecidableEq, Repr

namespace Double

/-- The double with the given word. -/
def ofWord (word : Nat) : Double := ⟨UInt64.ofNat word⟩

/-- What the double stands for. -/
def datum (x : Double) : Datum := Format.double.decode x.bits.toNat

/-- The double nearest to `± num / den`. -/
def ofRatio (negative : Bool) (num den : Nat) : Double :=
  ofWord (Format.double.withSign negative (Format.double.encodeRatio num den))

/-- The double nearest to an integer. -/
def ofInt (n : Int) : Double := ofRatio (decide (n < 0)) n.natAbs 1

/-- The quiet double that is no number. -/
def nan (negative : Bool) : Double :=
  ofWord (Format.double.withSign negative Format.double.quietNan)

/-- The infinite double of a sign. -/
def infinite (negative : Bool) : Double :=
  ofWord (Format.double.withSign negative Format.double.infinity)

/-- The double nearest to `± digits · 10 ^ exponent`. Magnitudes beyond the range are settled by
the number of digits, so the powers of ten stay small. -/
def ofDecimal (negative : Bool) (digits : Nat) (exponent : Int) : Double :=
  let order : Int := exponent + (Nat.toDigits 10 digits).length
  if digits = 0 ∨ order < -400 then ofRatio negative 0 1
  else if 400 < order then infinite negative
  else if exponent < 0 then ofRatio negative digits (Nat.pow 10 exponent.natAbs)
  else ofRatio negative (digits * Nat.pow 10 exponent.natAbs) 1

/-- Holds of the doubles that are numbers. -/
def isFinite (x : Double) : Bool :=
  match x.datum with
  | .finite .. => true
  | _ => false

/-- Holds of the doubles that are no number. -/
def isNan (x : Double) : Bool :=
  match x.datum with
  | .nan _ => true
  | _ => false

/-- The integer that a finite datum is, if it is one. -/
def exactInt? (x : Double) : Option Int :=
  match x.datum with
  | .finite negative m e =>
    let magnitude :=
      if 0 ≤ e then some (m * Nat.pow 2 e.natAbs)
      else if m % Nat.pow 2 e.natAbs = 0 then some (m / Nat.pow 2 e.natAbs) else none
    magnitude.map fun n => if negative then -(n : Int) else n
  | _ => none

/-- The nearest word of four bytes. -/
def toSingleBits (x : Double) : UInt32 :=
  let f := Format.single
  match x.datum with
  | .finite negative m e =>
    let (n, d) := Format.scaled m 1 (-e)
    UInt32.ofNat (f.withSign negative (f.encodeRatio n d))
  | .infinite negative => UInt32.ofNat (f.withSign negative f.infinity)
  | .nan negative => UInt32.ofNat (f.withSign negative f.quietNan)

/-- The double equal to a number of four bytes. -/
def ofSingleBits (word : UInt32) : Double :=
  match Format.single.decode word.toNat with
  | .finite negative m e =>
    let (n, d) := Format.scaled m 1 (-e)
    ofRatio negative n d
  | .infinite negative => infinite negative
  | .nan negative => nan negative

end Double

end Rowset.Binary
