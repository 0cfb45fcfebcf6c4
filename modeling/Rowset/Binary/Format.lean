/-!
# Binary numbers: the interchange formats

A word of a binary format holds a sign, a biased exponent and a fraction. `Format.decode` reads the
fields as an exact datum `± significand · 2 ^ exponent`, and `Format.encodeRatio` gives the word
nearest to a quotient of natural numbers. No floating-point operation is used: all arithmetic is on
natural numbers.
-/

namespace Rowset.Binary

/-- A binary format: the width of the significand with its hidden bit, and of the exponent. -/
structure Format where
  precision : Nat
  exponentWidth : Nat
  deriving DecidableEq, Repr

/-- The format of four bytes. -/
def Format.single : Format := ⟨24, 8⟩

/-- The format of eight bytes. -/
def Format.double : Format := ⟨53, 11⟩

/-- What a word of a binary format stands for. -/
inductive Datum where
  | finite (negative : Bool) (significand : Nat) (exponent : Int)
  | infinite (negative : Bool)
  | nan (negative : Bool)
  deriving DecidableEq, Repr

namespace Format

variable (f : Format)

/-- The width of the fraction field. -/
def fractionWidth : Nat := f.precision - 1

/-- The exponent field of the infinities and of what is no number. -/
def topExponent : Nat := Nat.pow 2 f.exponentWidth - 1

/-- The exponent of the last place of the smallest numbers. -/
def minExponent : Int := 3 - (Nat.pow 2 (f.exponentWidth - 1) : Int) - f.precision

/-- The word of the positive infinity. -/
def infinity : Nat := f.topExponent * Nat.pow 2 f.fractionWidth

/-- The word whose sign bit alone is set. -/
def signBit : Nat := Nat.pow 2 (f.fractionWidth + f.exponentWidth)

/-- The word of the positive quiet number that is none. -/
def quietNan : Nat := f.infinity + Nat.pow 2 (f.fractionWidth - 1)

/-- Sets the sign bit of a word that has none. -/
def withSign (negative : Bool) (word : Nat) : Nat :=
  if negative then f.signBit + word else word

/-- Reads the fields of a word. -/
def decode (word : Nat) : Datum :=
  let fraction := word % Nat.pow 2 f.fractionWidth
  let exponent := word / Nat.pow 2 f.fractionWidth % Nat.pow 2 f.exponentWidth
  let negative := decide (f.signBit ≤ word)
  if exponent = f.topExponent then
    if fraction = 0 then .infinite negative else .nan negative
  else if exponent = 0 then .finite negative fraction f.minExponent
  else
    .finite negative (Nat.pow 2 f.fractionWidth + fraction) (f.minExponent + (exponent - 1 : Nat))

/-- The quotient rounded to a natural number; a half goes to the even neighbour. -/
def divRound (num den : Nat) : Nat :=
  let q := num / den
  let twice := 2 * (num % den)
  if den < twice ∨ (twice = den ∧ q % 2 = 1) then q + 1 else q

/-- The quotient over `2 ^ exponent`, as a pair of natural numbers. -/
def scaled (num den : Nat) (exponent : Int) : Nat × Nat :=
  if exponent < 0 then (num * Nat.pow 2 exponent.natAbs, den)
  else (num, den * Nat.pow 2 exponent.natAbs)

/-- The exponent of the last place of the word nearest to a positive quotient: the least one that
the format has at which the significand is not too wide. -/
def placeOf (num den : Nat) : Int :=
  let low := max f.minExponent ((num.log2 : Int) - den.log2 - f.precision)
  let (n, d) := scaled num den low
  if n / d < Nat.pow 2 f.precision then low else low + 1

/-- **The word nearest to a quotient,** ties to the even one; past the largest finite number it is
the infinity. The exponent field and the fraction are added, so that a significand which rounds up
to the next power of two carries into the exponent. -/
def encodeRatio (num den : Nat) : Nat :=
  if num = 0 then 0 else
  let place := f.placeOf num den
  let (n, d) := scaled num den place
  min f.infinity ((place - f.minExponent).toNat * Nat.pow 2 f.fractionWidth + divRound n d)

end Format

end Rowset.Binary
