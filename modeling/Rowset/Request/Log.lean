import Rowset.Placeholder
import Rowset.Request.Key

/-!
# Requests: the log

What is written down while requests are carried out: a statement that was run, a statement that was
held back, and a batch of records that is about to be added. Logged statements are cut to a length
in bytes, at a boundary between characters.
-/

namespace Rowset

/-- The levels of a log. -/
inductive Level where
  | error
  | warn
  | info
  | debug
  | trace
  deriving DecidableEq, Repr

/-- How requests are logged. -/
structure Logging where
  /-- Each statement that is run is logged with its time. -/
  debug : Bool
  /-- The level at which it is logged. -/
  level : Level
  /-- The most bytes of a statement that are logged; without a number all of them. -/
  maxLength : Option Nat
  deriving DecidableEq, Repr

/-- Statements that are run are not logged, and other statements up to 200 bytes. -/
def Logging.standard : Logging :=
  ⟨false, .debug, some 200⟩

/-- The characters from the front whose UTF-8 forms together have at most `room` bytes. -/
def takeBytes : Nat → List Char → List Char
  | _, [] => []
  | room, c :: cs => if c.utf8Size ≤ room then c :: takeBytes (room - c.utf8Size) cs else []

/-- A statement as it is logged. -/
def Logging.excerpt (l : Logging) (sql : String) : String :=
  match l.maxLength with
  | none => sql
  | some room =>
    if sql.utf8ByteSize ≤ room then sql else String.ofList (takeBytes room sql.toList) ++ "..."

/-- An entry of the log. -/
inductive Event where
  /-- A statement was run, in some microseconds, and the executor succeeded or not. -/
  | executed (level : Level) (sql params : String) (elapsed : Nat) (ok : Bool)
  /-- A statement was held back. -/
  | withheld (sql : String) (mismatch : Mismatch)
  /-- Records are about to be added. -/
  | insertion (table : String) (rows : Nat) (keys : List (String × KeyKind))
  deriving DecidableEq, Repr

namespace Event

/-- The level of an entry. -/
def level : Event → Level
  | .executed l .. => l
  | .withheld .. => .warn
  | .insertion .. => .trace

/-- A time in milliseconds, with three places for the microseconds. -/
def milliseconds (elapsed : Nat) : String :=
  let micros := toString (elapsed % 1000)
  toString (elapsed / 1000) ++ "." ++
    String.ofList (List.replicate (3 - micros.length) '0') ++ micros

/-- The kinds of keys by column. -/
def keyText (keys : List (String × KeyKind)) : String :=
  "\x7b" ++ String.intercalate ", "
    (keys.map fun (column, kind) => Text.quoted column ++ ": " ++ kind.word) ++ "\x7d"

/-- The named texts of an entry. -/
def fields : Event → List (String × String)
  | .executed _ sql params elapsed ok =>
    [("message", "statement executed"), ("sql", sql), ("params", params),
     ("elapsed_ms", milliseconds elapsed), ("ok", Value.boolWord ok)]
  | .withheld sql mismatch =>
    [("message", "placeholder/binding count mismatch, possible SQL injection; " ++
        "statement not executed"),
     ("sql", sql), ("markers", toString mismatch.markers), ("bindings", toString mismatch.bindings)]
  | .insertion table rows keys =>
    [("message", "batch insert"), ("table", table), ("rows", toString rows),
     ("keys", keyText keys)]

end Event

end Rowset
