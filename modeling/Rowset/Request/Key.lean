/-!
# Kinds of keys

A caller who adds rows says of what kind the key columns are.
-/

namespace Rowset

/-- The kinds of key columns. -/
inductive KeyKind where
  | number
  | uuid
  deriving DecidableEq, Repr

/-- The word for a kind of key. -/
def KeyKind.word : KeyKind → String
  | .number => "Number"
  | .uuid => "Uuid"

end Rowset
