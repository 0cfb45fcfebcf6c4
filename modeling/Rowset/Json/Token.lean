import Rowset.Json.Basic
import Rowset.Text.Integer

/-!
# Json: numbers and strings

The tokens that carry data. A token is taken from the front of a text by its grammar alone, and what
it stands for is a second question, which can have no answer: a number has to be finite, and the
escapes of a string have to name characters, a pair of surrogates naming one.
-/

namespace Rowset.Json

/-! ### Numbers -/

/-- A number as it is written: `± digits · 10 ^ exponent`, and whether it is a plain run of
digits. -/
structure Literal where
  negative : Bool
  digits : Nat
  exponent : Int
  plain : Bool
  deriving DecidableEq, Repr

namespace Token

/-- Takes the digits from the front; there has to be one. -/
def digits? (cs : List Char) : Option (List Char × List Char) :=
  let run := cs.takeWhile Char.isDigit
  if run.isEmpty then none else some (run, cs.drop run.length)

/-- Takes the fraction of a number, which is empty where no point stands. -/
def fraction? : List Char → Option (List Char × List Char)
  | '.' :: cs => digits? cs
  | cs => some ([], cs)

/-- Takes the exponent of a number, if one stands there. -/
def exponent? : List Char → Option (Option Int × List Char)
  | c :: cs =>
    if c = 'e' ∨ c = 'E' then
      let (negative, cs) := match cs with
        | '-' :: cs => (true, cs)
        | '+' :: cs => (false, cs)
        | cs => (false, cs)
      (digits? cs).map fun (run, rest) =>
        (some (if negative then -(Text.ofDigits run : Int) else Text.ofDigits run), rest)
    else some (none, c :: cs)
  | [] => some (none, [])

/-- Takes an unsigned number. A zero stands alone before the point. -/
def unsigned? (negative : Bool) (cs : List Char) : Option (Literal × List Char) := do
  let (whole, rest) ← digits? cs
  if whole.head? = some '0' ∧ whole.length ≠ 1 then none
  let (fraction, rest) ← fraction? rest
  let (exponent, rest) ← exponent? rest
  let plain := fraction.isEmpty && exponent.isNone
  let places : Int := exponent.getD 0 - (fraction.length : Int)
  pure (⟨negative, Text.ofDigits (whole ++ fraction), places, plain⟩, rest)

/-- Takes a number with its sign. -/
def number? : List Char → Option (Literal × List Char)
  | '-' :: cs => unsigned? true cs
  | cs => unsigned? false cs

end Token

/-- The number that a literal stands for. A plain run of digits that fits 64 bits is an integer, and
anything else the nearest double; `-0` is a double, since it has a sign. -/
def Literal.number? (l : Literal) : Option Number :=
  let value : Int := if l.negative then -(l.digits : Int) else l.digits
  let negativeZero := l.negative && l.digits == 0
  if l.plain && !negativeZero && -(Nat.pow 2 63 : Int) ≤ value && value < (Nat.pow 2 64 : Int) then
    some (.integer value)
  else
    let x := Binary.Double.ofDecimal l.negative l.digits l.exponent
    if x.isFinite then some (.real x) else none

/-! ### Strings -/

namespace Token

/-- Takes the characters up to the closing quote. A backslash has one of the nine escapes after it,
and no control character stands unescaped. -/
def quoted? (taken : List Char) : List Char → Option (List Char × List Char)
  | [] => none
  | '"' :: cs => some (taken.reverse, cs)
  | '\\' :: 'u' :: a :: b :: c :: d :: cs =>
    if [a, b, c, d].all fun x => (Text.hexValue? x).isSome then
      quoted? (d :: c :: b :: a :: 'u' :: '\\' :: taken) cs
    else none
  | '\\' :: c :: cs =>
    if ['"', '\\', '/', 'b', 'f', 'n', 'r', 't'].contains c then quoted? (c :: '\\' :: taken) cs
    else none
  | c :: cs => if c.toNat < 0x20 then none else quoted? (c :: taken) cs

/-- The number that four hexadecimal digits stand for. -/
def codeUnit (a b c d : Char) : Nat :=
  [a, b, c, d].foldl (fun n x => 16 * n + (Text.hexValue? x).getD 0) 0

/-- The character that a letter behind a backslash stands for. -/
def escaped (c : Char) : Char :=
  match c with
  | 'b' => '\x08'
  | 'f' => '\x0c'
  | 'n' => '\n'
  | 'r' => '\x0d'
  | 't' => '\t'
  | c => c

/-- Resolves the escapes of a string. A leading surrogate needs a trailing one right behind it, and
a trailing one needs a leading one before it. -/
def unescape? (taken : List Char) : List Char → Option String
  | [] => some (String.ofList taken.reverse)
  | '\\' :: 'u' :: a :: b :: c :: d :: rest =>
    let unit := codeUnit a b c d
    if unit < 0xd800 ∨ 0xdfff < unit then unescape? (Char.ofNat unit :: taken) rest
    else if 0xdc00 ≤ unit then none
    else
      match rest with
      | '\\' :: 'u' :: a :: b :: c :: d :: rest =>
        let low := codeUnit a b c d
        if 0xdc00 ≤ low ∧ low ≤ 0xdfff then
          unescape? (Char.ofNat (0x10000 + (unit - 0xd800) * 0x400 + (low - 0xdc00)) :: taken) rest
        else none
      | _ => none
  | '\\' :: c :: rest => unescape? (escaped c :: taken) rest
  | c :: rest => unescape? (c :: taken) rest

end Token

end Rowset.Json
