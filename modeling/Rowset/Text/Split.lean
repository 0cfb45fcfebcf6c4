/-!
# Text: splitting at a character

A list is cut at every separator, so there is always one part more than there are separators.
-/

namespace Rowset.Text

/-- The parts of a text between the separators. -/
def splitAt (separator : Char) : List Char → List (List Char)
  | [] => [[]]
  | c :: cs =>
    if c = separator then [] :: splitAt separator cs
    else
      match splitAt separator cs with
      | [] => [[c]]
      | part :: parts => (c :: part) :: parts

end Rowset.Text
