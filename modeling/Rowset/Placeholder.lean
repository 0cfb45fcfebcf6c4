import Rowset.Binding

/-!
# Placeholders by position

A server takes placeholders by position: `$1` for the first parameter, `$2` for the second. The
placeholders of a bound statement are brought into this form. What stands in quotes is left alone,
and so are casts, which are written with two colons, and names that no parameter has.
-/

namespace Rowset

namespace Placeholder

/-- Holds of the characters that a placeholder's name is made of. -/
def isNameChar (c : Char) : Bool :=
  c.isAlphanum || c == '_'

/-- Splits a text behind the next quote of the given kind, or at the end if there is none. -/
def splitQuoted (quote : Char) : List Char → List Char × List Char
  | [] => ([], [])
  | c :: cs =>
    if c = quote then ([c], cs)
    else
      let (run, rest) := splitQuoted quote cs
      (c :: run, rest)

theorem length_splitQuoted (quote : Char) (cs : List Char) :
    (splitQuoted quote cs).2.length ≤ cs.length := by
  induction cs with
  | nil => simp [splitQuoted]
  | cons c cs ih =>
    unfold splitQuoted
    split
    · simp
    · simp only [List.length_cons]
      omega

/-- What stands for a colon and the name behind it. -/
def resolve (params : Parameters) (name : List Char) : List Char :=
  match params.position? (String.ofList name) with
  | some i => '$' :: (toString (i + 1)).toList
  | none => ':' :: name

/-- Numbers the placeholders from left to right. -/
def numbered (params : Parameters) (cs : List Char) : List Char :=
  match cs with
  | [] => []
  | ':' :: ':' :: cs => ':' :: ':' :: numbered params cs
  | c :: cs =>
    if c = '\'' ∨ c = '"' then
      c :: (splitQuoted c cs).1 ++ numbered params (splitQuoted c cs).2
    else if c = ':' then
      resolve params (cs.takeWhile isNameChar) ++ numbered params (cs.dropWhile isNameChar)
    else c :: numbered params cs
termination_by cs.length
decreasing_by
  · simp only [List.length_cons]
    omega
  · have := length_splitQuoted c cs
    simp only [List.length_cons]
    omega
  · have := (List.dropWhile_sublist isNameChar (l := cs)).length_le
    simp only [List.length_cons]
    omega
  · simp only [List.length_cons]
    omega

end Placeholder

/-- **Numbers the placeholders of a text** by their positions among the parameters. -/
def toPositional (params : Parameters) (sql : String) : String :=
  String.ofList (Placeholder.numbered params sql.toList)

end Rowset
