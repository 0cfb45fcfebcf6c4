import Rowset.Binary.Layout
import Rowset.Json.Basic

/-!
# Json: printing

The compact text of a value: no space between tokens, members in the order of the object. A double
that is not finite has no text of its own and is written as `null`.
-/

namespace Rowset.Json

/-- An exponent is written from `1e16` on and below `1e-5`, with its sign; all other numbers have a
decimal point. -/
def layout : Binary.Layout where
  positional order := decide (-5 ≤ order ∧ order < 16)
  fraction := true
  plus := true
  tie := .even

/-- Prints a double, or `null` for one that is not finite. -/
def printDouble (x : Binary.Double) : String :=
  if x.isFinite then layout.write x else "null"

/-- Prints a number. -/
def Number.print : Number → String
  | .integer n => Text.ofInt n
  | .real x => printDouble x

/-- The escape of a character inside quotes; all but the quote, the backslash and the control
characters stand for themselves. -/
def escape (c : Char) : List Char :=
  match c with
  | '"' => ['\\', '"']
  | '\\' => ['\\', '\\']
  | '\x08' => ['\\', 'b']
  | '\x0c' => ['\\', 'f']
  | '\n' => ['\\', 'n']
  | '\x0d' => ['\\', 'r']
  | '\t' => ['\\', 't']
  | c => if c.toNat < 0x20 then '\\' :: 'u' :: (Text.hex 4 c.toNat).toList else [c]

/-- Prints a text between quotes. -/
def printText (s : String) : String :=
  String.ofList ('"' :: s.toList.flatMap escape ++ ['"'])

mutual

/-- **The compact text of a value.** -/
def print : Json → String
  | .null => "null"
  | .bool b => if b then "true" else "false"
  | .number n => n.print
  | .string s => printText s
  | .array items => "[" ++ String.intercalate "," (printItems items) ++ "]"
  | .object members => "\x7b" ++ String.intercalate "," (printMembers members) ++ "\x7d"

/-- The texts of the items of an array. -/
def printItems : List Json → List String
  | [] => []
  | item :: items => item.print :: printItems items

/-- The texts of the members of an object. -/
def printMembers : List (String × Json) → List String
  | [] => []
  | (key, value) :: members => (printText key ++ ":" ++ value.print) :: printMembers members

end

end Rowset.Json
