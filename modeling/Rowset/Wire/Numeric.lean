import Rowset.Binary.Double
import Rowset.Text.Bytes

/-!
# The wire: decimal numbers

A numeric is a sign, a coefficient of 96 bits and a scale, the number of its digits after the point,
which is at most 28. It is read from text and from doubles, and it goes over the wire as groups of
four digits. Digits that do not fit after the point are rounded away; a number that does not fit
before it is refused.
-/

namespace Rowset.Wire

/-- A decimal number `± coefficient / 10 ^ scale`. -/
structure Numeric where
  negative : Bool
  coefficient : Nat
  scale : Nat
  deriving DecidableEq, Repr

namespace Numeric

/-- The least number that is too large for a coefficient. -/
def limit : Nat := Nat.pow 2 96

/-- The largest scale. -/
def maxScale : Nat := 28

/-! ### Scales -/

/-- Brings a number to a scale: further digits are rounded away, a half away from zero, and missing
ones are filled in as far as they fit. -/
def rescale (scale : Nat) : Nat × Nat → Nat × Nat
  | (coefficient, own) =>
    if scale < own then ((coefficient / Nat.pow 10 (own - scale - 1) + 5) / 10, scale)
    else
      let missing := scale - own
      let filled := ((List.range (missing + 1)).reverse.find? fun k =>
        coefficient * Nat.pow 10 k < limit).getD 0
      (coefficient * Nat.pow 10 filled, own + filled)

/-! ### Reading text -/

/-- A coefficient is long when what stands before its last digit reaches this number. -/
def longBound : Nat := (Nat.pow 2 64 - 1) / 10 - 255

/-- The digit to round at, in the text behind a coefficient. A separator in front of it is passed
over behind a long coefficient and counts as zero behind a short one. -/
def roundingDigit (coefficient : Nat) (rest : List Char) : Nat :=
  let rest := if longBound ≤ coefficient / 10 then rest.dropWhile (· == '_') else rest
  match rest with
  | c :: _ => if c.isDigit then Text.digitValue c else 0
  | [] => 0

/-- Rounds at the first digit of a text that does not fit any more. The digits behind that one do
not matter, but nothing other than digits and separators may stand there. -/
def roundAt? (coefficient scale : Nat) (rest : List Char) : Option (Nat × Nat) :=
  if !(rest.all fun c => c.isDigit || c == '_') then none
  else if roundingDigit coefficient rest < 5 then some (coefficient, scale)
  else if coefficient + 1 < limit then some (coefficient + 1, scale)
  else if scale = 0 then none
  else some ((coefficient + 5) / 10, scale - 1)

/-- Reads digits with at most one point. After the first digit they may be set apart with `_`. -/
def readDigits? (point started : Bool) (coefficient scale : Nat) :
    List Char → Option (Nat × Nat)
  | [] => if started then some (coefficient, scale) else none
  | c :: cs =>
    if c.isDigit then
      let longer := 10 * coefficient + Text.digitValue c
      if limit ≤ longer then if point then roundAt? coefficient scale (c :: cs) else none
      else
        let scale := if point then scale + 1 else 0
        if point ∧ maxScale ≤ scale then roundAt? longer scale cs
        else readDigits? point true longer scale cs
    else if c = '.' ∧ !point then readDigits? true started coefficient scale cs
    else if c = '_' ∧ started then readDigits? point started coefficient scale cs
    else none

/-- Reads a number without an exponent. -/
def readPlain? (cs : List Char) : Option Numeric :=
  let (negative, digits) := match cs with
    | '-' :: cs => (true, cs)
    | '+' :: cs => (false, cs)
    | cs => (false, cs)
  (readDigits? false false 0 0 digits).map fun (coefficient, scale) =>
    ⟨negative, coefficient, scale⟩

/-- Moves trailing zeros out of the scale. -/
def dropZeros : Nat → Nat → Nat × Nat
  | coefficient, 0 => (coefficient, 0)
  | coefficient, scale + 1 =>
    if coefficient % 10 = 0 then dropZeros (coefficient / 10) scale else (coefficient, scale + 1)

/-- A number times a power of ten. A power within the scale only moves the point. -/
def raise? (x : Numeric) (exponent : Nat) : Option Numeric :=
  if exponent ≤ x.scale then some { x with scale := x.scale - exponent }
  else if maxScale < exponent then none
  else
    let coefficient := x.coefficient * Nat.pow 10 (exponent - x.scale)
    if coefficient < limit then some { x with coefficient, scale := 0 } else none

/-- A number over a power of ten. Digits that come to stand behind the largest scale are rounded
away. -/
def lower? (x : Numeric) (exponent : Nat) : Option Numeric :=
  if maxScale < exponent then none
  else if x.scale + exponent ≤ maxScale then some { x with scale := x.scale + exponent }
  else
    let (coefficient, _) := rescale (maxScale - exponent) (x.coefficient, x.scale)
    some { x with coefficient, scale := maxScale }

/-- Reads a number with an exponent. -/
def readScientific? (cs : List Char) : Option Numeric := do
  let base := cs.takeWhile fun c => c != 'e' && c != 'E'
  let x ← readPlain? base
  match cs.drop base.length with
  | [] => none
  | _ :: '-' :: exponent => do x.lower? (← Text.readWord? 32 exponent)
  | _ :: exponent => do x.raise? (← Text.readWord? 32 exponent)

/-- **Reads a number,** with or without an exponent. -/
def read? (cs : List Char) : Option Numeric :=
  (readPlain? cs).or (readScientific? cs)

/-! ### From doubles -/

/-- Divides `coefficient / 10 ^ scale` by two `count` times: the coefficient is halved where it is
even, and otherwise it is made five times as large over ten, or halved with a loss where that would
not fit. -/
def halve : Nat → Nat → Nat → Nat × Nat
  | 0, coefficient, scale => (coefficient, scale)
  | count + 1, coefficient, scale =>
    if coefficient % 2 = 0 then halve count (coefficient / 2) scale
    else if coefficient * 5 < limit then halve count (coefficient * 5) (scale + 1)
    else halve count (coefficient / 2) scale

/-- Divides by ten, a half going up. -/
def tenth (coefficient : Nat) : Nat :=
  (coefficient + 5) / 10

/-- Divides by ten until the scale is within its bounds; what comes to nothing has no scale. -/
def intoScale : Nat → Nat → Nat × Nat
  | coefficient, 0 => (coefficient, 0)
  | coefficient, scale + 1 =>
    if scale + 1 ≤ maxScale then (coefficient, scale + 1)
    else if coefficient < 10 then (0, 0)
    else intoScale (tenth coefficient) scale

/-- Divides by ten until 53 bits are enough or the scale is used up. -/
def intoPrecision : Nat → Nat → Nat × Nat
  | coefficient, 0 => (coefficient, 0)
  | coefficient, scale + 1 =>
    if coefficient < Nat.pow 2 52 then (coefficient, scale + 1)
    else intoPrecision (tenth coefficient) scale

/-- The number that a finite double stands for: an integral double exactly, and another one with at
most sixteen digits or so. -/
def ofDouble? (x : Binary.Double) : Option Numeric :=
  match x.datum with
  | .finite negative 0 _ => some ⟨negative, 0, 0⟩
  | .finite negative m e =>
    if 0 ≤ e then
      let coefficient := m * Nat.pow 2 e.natAbs
      if coefficient < limit then some ⟨negative, coefficient, 0⟩ else none
    else
      let (coefficient, scale) := halve e.natAbs m 0
      let (coefficient, scale) := intoScale coefficient scale
      let (coefficient, scale) := intoPrecision coefficient scale
      let (coefficient, scale) := dropZeros coefficient scale
      some ⟨negative, coefficient, scale⟩
  | _ => none

/-! ### Writing to the wire -/

/-- The digits of a number in base ten thousand. -/
def groups (n : Nat) : List Nat :=
  if n < 10000 then [n] else groups (n / 10000) ++ [n % 10000]
termination_by n

/-- **The wire form:** the number of groups, the weight of the first one, the sign, the scale, and
the groups. The last group ends with the fraction; groups of zeros at the end of the fraction are
left out of a number that has an integer part. -/
def toWire (x : Numeric) : List UInt8 :=
  if x.coefficient = 0 then List.replicate 8 0
  else
    let all := groups (x.coefficient * Nat.pow 10 ((4 - x.scale % 4) % 4))
    let weight : Int := all.length - ((x.scale + 3) / 4 : Nat) - 1
    let whole := (weight + 1).toNat
    let fraction := all.drop whole
    let kept :=
      if 0 ≤ weight then all.take whole ++ (fraction.reverse.dropWhile (· == 0)).reverse
      else all
    Text.bigEndian 2 kept.length ++ Text.bigEndianInt 2 weight ++
      Text.bigEndian 2 (if x.negative then 0x4000 else 0) ++ Text.bigEndian 2 x.scale ++
      kept.flatMap (Text.bigEndian 2)

/-! ### Reading from the wire -/

/-- Takes two bytes from the front as a number. -/
def takeWord : List UInt8 → Option (Nat × List UInt8)
  | a :: b :: rest => some (Text.ofBigEndian [a, b], rest)
  | _ => none

/-- Takes so many groups from the front. -/
def takeGroups : Nat → List UInt8 → Option (List Nat)
  | 0, _ => some []
  | count + 1, bytes => do
    let (group, rest) ← takeWord bytes
    let groups ← takeGroups count rest
    pure (group :: groups)

/-- Rounds a sum to the digits that fit; a half goes to the even neighbour. -/
def fit? (coefficient scale : Nat) : Option (Nat × Nat) :=
  (List.range (scale + 1)).findSome? fun lost =>
    let rounded := Binary.Format.divRound coefficient (Nat.pow 10 lost)
    if rounded < limit then some (rounded, scale - lost) else none

/-- Adds `group / 10 ^ places` to a number. -/
def addGroup? (x : Nat × Nat) (group places : Nat) : Option (Nat × Nat) :=
  let scale := max x.2 places
  fit? (x.1 * Nat.pow 10 (scale - x.2) + group * Nat.pow 10 (scale - places)) scale

/-- Adds the groups of a fraction, the first of which has its last digit at `places`. The group
beyond the largest scale can only round the last place up. -/
def addFraction? (x : Nat × Nat) (places : Nat) : List Nat → Option (Nat × Nat)
  | [] => some x
  | group :: groups => do
    let next ←
      if places ≤ maxScale then addGroup? x group places
      else if places = maxScale + 4 ∧ 5000 ≤ group then addGroup? x 1 maxScale
      else some x
    addFraction? next (places + 4) groups

/-- The number that the groups of an integer part stand for. -/
def wholeOf? (groups : List Nat) : Option Nat :=
  groups.foldlM (fun n group =>
    if n * 10000 + group < limit then some (n * 10000 + group) else none) 0

/-- **The number that a wire form stands for,** brought to the scale that it names. -/
def ofWire? (bytes : List UInt8) : Option Numeric := do
  let (count, bytes) ← takeWord bytes
  let (weightWord, bytes) ← takeWord bytes
  let (sign, bytes) ← takeWord bytes
  let (scale, bytes) ← takeWord bytes
  if 0xc000 ≤ sign then none
  let groups ← takeGroups count bytes
  let weight : Int := (weightWord : Int).bmod 65536
  let whole := (weight + 1).toNat
  let integer ← wholeOf? (groups.take whole)
  let missing := whole - groups.length
  if 7 < missing then none
  let integer := integer * Nat.pow 10 (4 * missing)
  if limit ≤ integer then none
  let places := 4 * ((-weight - 1).toNat + 1)
  let sum ← addFraction? (integer, 0) places (groups.drop whole)
  let (coefficient, scale) := rescale (min scale maxScale) sum
  pure ⟨sign = 0x4000, coefficient, scale⟩

/-- The text of a number, with as many digits after the point as its scale says. -/
def text (x : Numeric) : String :=
  let digits := Nat.toDigits 10 x.coefficient
  let padded := List.replicate (x.scale + 1 - digits.length) '0' ++ digits
  let whole := padded.take (padded.length - x.scale)
  let fraction := padded.drop (padded.length - x.scale)
  String.ofList ((if x.negative then ['-'] else []) ++ whole ++
    (if fraction.isEmpty then [] else '.' :: fraction))

end Numeric

end Rowset.Wire
