import Rowset.Binary.Double

/-!
# Binary numbers: the shortest decimal

A double stands for every real number that rounds to it. These reals form an interval, and the
shortest decimal of the double is the one with the fewest digits in that interval, the nearest of
those. On a decimal grid only the two neighbours of the double itself have to be tried, because
the interval contains one of them as soon as it contains any point of the grid.
-/

namespace Rowset.Binary

/-- A decimal number `digits · 10 ^ exponent`. -/
structure Decimal where
  digits : Nat
  exponent : Int
  deriving DecidableEq, Repr

/-- Which of two equally near decimals is taken. -/
inductive Tie where
  | up
  | even
  deriving DecidableEq, Repr

namespace Decimal

/-- Moves up to `fuel` trailing zeros of the digits into the exponent. -/
def dropZeros : Nat → Decimal → Decimal
  | 0, d => d
  | fuel + 1, d =>
    if d.digits ≠ 0 ∧ d.digits % 10 = 0 then dropZeros fuel ⟨d.digits / 10, d.exponent + 1⟩ else d

end Decimal

/-- The reals that round to a positive double `num / den`: they reach down to `low / den` and up to
`high / den`, ends included when `closed`. -/
structure Interval where
  num : Nat
  den : Nat
  low : Nat
  high : Nat
  closed : Bool

namespace Interval

/-- The interval of the datum `significand · 2 ^ exponent`. The neighbour below is half as far away
when the significand is the least one of a normal number. -/
def ofDatum (significand : Nat) (exponent : Int) : Interval :=
  let narrow := significand = Nat.pow 2 52 ∧ Format.double.minExponent < exponent
  let (unit, den) := Format.scaled 1 4 (-exponent)
  { num := 4 * significand * unit
    den := den
    low := 4 * significand * unit - (if narrow then 1 else 2) * unit
    high := (4 * significand + 2) * unit
    closed := significand % 2 = 0 }

/-- Compares `n · 10 ^ exponent` with `bound / den` by cross-multiplication. -/
def compareAt (n : Nat) (exponent : Int) (bound den : Nat) : Ordering :=
  if exponent < 0 then compare (n * den) (bound * Nat.pow 10 exponent.natAbs)
  else compare (n * Nat.pow 10 exponent.natAbs * den) bound

/-- Holds of the decimals in the interval. -/
def holds (i : Interval) (d : Decimal) : Bool :=
  let below := compareAt d.digits d.exponent i.low i.den
  let above := compareAt d.digits d.exponent i.high i.den
  (below == .gt || (i.closed && below == .eq)) && (above == .lt || (i.closed && above == .eq))

/-- The least exponent, among those near the estimate from the binary length, whose power of ten is
above the double. -/
def order (i : Interval) : Int :=
  let estimate := ((i.num.log2 : Int) - i.den.log2) * 30103 / 100000
  let candidates := [estimate - 1, estimate, estimate + 1]
  (candidates.find? fun k => compareAt 1 k i.num i.den == .gt).getD (estimate + 2)

/-- The decimal of the interval on the grid of step `10 ^ exponent` that is nearest to the
double. -/
def onGrid? (tie : Tie) (i : Interval) (exponent : Int) : Option Decimal :=
  let floor :=
    if exponent < 0 then i.num * Nat.pow 10 exponent.natAbs / i.den
    else i.num / (i.den * Nat.pow 10 exponent.natAbs)
  let down : Decimal := ⟨floor, exponent⟩
  let up : Decimal := ⟨floor + 1, exponent⟩
  match i.holds down, i.holds up with
  | true, true =>
    -- the double lies above, below or at the middle of the two
    match compareAt (2 * floor + 1) exponent (2 * i.num) i.den, tie with
    | .lt, _ => some up
    | .gt, _ => some down
    | .eq, .up => some up
    | .eq, .even => some (if floor % 2 = 0 then down else up)
  | true, false => some down
  | false, true => some up
  | false, false => none

/-- The shortest decimal in the interval; seventeen digits are always enough. -/
def shortest (tie : Tie) (i : Interval) : Decimal :=
  let order := i.order
  let found := (List.range 17).findSome? fun (n : Nat) => i.onGrid? tie (order - 1 - n)
  (found.getD ⟨i.num / i.den, 0⟩).dropZeros 20

end Interval

end Rowset.Binary
