/-!
# Text: blank characters

The characters with the Unicode property White_Space, and their removal from both ends of a text.
The class is wider than core's `Char.isWhitespace` (`isBlank_of_isWhitespace`).
-/

namespace Rowset.Text

/-- Holds of the twenty-five characters with the property White_Space. -/
def isBlank (c : Char) : Bool :=
  let n := c.toNat
  (0x9 ≤ n && n ≤ 0xd) || n == 0x20 || n == 0x85 || n == 0xa0 || n == 0x1680 ||
    (0x2000 ≤ n && n ≤ 0x200a) || n == 0x2028 || n == 0x2029 || n == 0x202f || n == 0x205f ||
    n == 0x3000

/-- Removes the blank characters at both ends. -/
def trimmed (cs : List Char) : List Char :=
  ((cs.dropWhile isBlank).reverse.dropWhile isBlank).reverse

/-- Removes the blank characters at both ends of a text. -/
def trim (s : String) : String :=
  String.ofList (trimmed s.toList)

theorem isBlank_of_isWhitespace {c : Char} (h : c.isWhitespace = true) : isBlank c = true := by
  simp only [Char.isWhitespace, Bool.or_eq_true, decide_eq_true_eq] at h
  rcases h with ((rfl | rfl) | rfl) | rfl <;> decide

/-- The separator U+001C and the joiner U+200B are not blank, and U+0085 is. -/
example : isBlank '\u001c' = false ∧ isBlank '\u200b' = false ∧ isBlank '\u0085' = true := by
  decide

end Rowset.Text
