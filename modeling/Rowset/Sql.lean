import Rowset.Name
import Rowset.Value

/-!
# Statements in pieces

A statement is put together from pieces: fixed words, names, markers that stand for a value, and
fragments that a caller has supplied with values of their own. The text and the list of bound values
are both read off the same pieces, in the same order, so a marker and its value cannot drift apart
(`text_append`, `bindings_append`).
-/

namespace Rowset

/-- A text with `?` markers and the values for them, in text order. -/
structure Statement where
  sql : String
  bindings : List Value
  deriving DecidableEq, Repr

namespace Sql

/-- A piece of a statement. -/
inductive Piece where
  /-- Words of the language. -/
  | words (text : String)
  /-- A name, which is written in quotes. -/
  | name (name : Name)
  /-- A marker for one value. -/
  | marker (value : Value)
  /-- A text of the caller, taken as it is, with the values for the markers in it. -/
  | fragment (text : String) (bindings : List Value)

/-- The text of a piece. -/
def Piece.text : Piece → String
  | .words t => t
  | .name n => n.quoted
  | .marker _ => "?"
  | .fragment t _ => t

/-- The values bound by a piece. -/
def Piece.bindings : Piece → List Value
  | .words _ => []
  | .name _ => []
  | .marker v => [v]
  | .fragment _ vs => vs

/-- The text of some pieces. -/
def text (pieces : List Piece) : String :=
  String.join (pieces.map Piece.text)

/-- The values bound by some pieces, in text order. -/
def bindings (pieces : List Piece) : List Value :=
  pieces.flatMap Piece.bindings

/-- The statement that some pieces make. -/
def statement (pieces : List Piece) : Statement :=
  ⟨text pieces, bindings pieces⟩

/-- Holds of the pieces that have no text; they can still bind values. -/
def isBlank (pieces : List Piece) : Bool :=
  pieces.all fun piece => piece.text.isEmpty

/-- Puts pieces into parentheses. -/
def parenthesized (pieces : List Piece) : List Piece :=
  .words "(" :: pieces ++ [.words ")"]

/-- Puts a separator between the parts that follow a part with text. A part without text keeps its
values and takes no separator. -/
def joinAfter (separator : String) (started : Bool) : List (List Piece) → List Piece
  | [] => []
  | part :: parts =>
    if isBlank part then part ++ joinAfter separator started parts
    else if started then .words separator :: part ++ joinAfter separator true parts
    else part ++ joinAfter separator true parts

/-- Joins the parts that have text with a separator. -/
def joined (separator : String) (parts : List (List Piece)) : List Piece :=
  joinAfter separator false parts

/-- Names with commas between them. -/
def nameList (names : List Name) : List Piece :=
  joined ", " (names.map fun name => [.name name])

/-- The name that a count is given. -/
def countName : Name :=
  ⟨["count"], by simp, by simp [ProperPart]⟩

/-- The name that a nested selection is given. -/
def nestedName : Name :=
  ⟨["t"], by simp, by simp [ProperPart]⟩

theorem text_append (a b : List Piece) : text (a ++ b) = text a ++ text b := by
  simp [text, String.join_append]

theorem bindings_append (a b : List Piece) : bindings (a ++ b) = bindings a ++ bindings b := by
  simp [bindings]

end Sql

end Rowset
