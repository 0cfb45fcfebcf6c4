import Rowset.Filter.Reader
import Rowset.Json.Source
import Rowset.Request.Key
import Rowset.Scope

/-!
# Forms

Values, records, filters, sort keys and scopes as they are given in structured text. A form is read
from the tree of a text, member by member in text order, and the first member that does not fit is
reported. A member that a form does not have is passed over without being judged; one that it has
may stand there once only. A form with named members can also be given as an array of its members,
from the first up to any that are left out. `room` is the number of levels that may still be nested.
-/

namespace Rowset.Form

open Json (Source)

/-- What is wrong with a tree that is not of a form. -/
inductive Problem where
  | filter (problem : Filter.Problem)
  | notADirection (got : Json)
  | notAScalar (got : Json)
  /-- The tree has another shape, or says nothing. -/
  | shape

/-- The words for what is wrong, if the form has words for it. -/
def Problem.message? : Problem → Option String
  | .filter problem => some problem.fault.message
  | .notADirection got =>
    some ("invalid sort direction " ++ got.print ++ ", expected \"asc\", \"desc\", 1 or -1")
  | .notAScalar got => some ("expected a scalar value, got " ++ got.print)
  | .shape => none

/-- The result of reading a form. -/
abbrev Reading (α : Type) := Except Problem α

/-- Reads a whole tree as a value. -/
def json (room : Nat) (source : Source) : Reading Json :=
  match source.toJson? room with
  | some json => .ok json
  | none => .error .shape

/-- Reads a scalar. -/
def value (room : Nat) (source : Source) : Reading Value := do
  let json ← json room source
  match Value.ofJson? json with
  | some value => pure value
  | none => throw (.notAScalar json)

/-- Reads a filter. -/
def filter (room : Nat) (source : Source) : Reading Filter := do
  match Filter.ofJson (← json room source) with
  | .ok filter => pure filter
  | .error problem => throw (.filter problem)

/-- Reads a text. -/
def text : Source → Reading String
  | .string (some s) => .ok s
  | _ => .error .shape

/-- Reads a count, which fits 64 bits. -/
def count : Source → Reading Nat
  | .number (some (.integer n)) => if 0 ≤ n then .ok n.toNat else .error .shape
  | _ => .error .shape

/-- Reads a form that may also be `null`. -/
def optional {α : Type} (read : Source → Reading α) : Source → Reading (Option α)
  | .null => .ok none
  | source => (read source).map some

/-- The items of an array. -/
def items : Nat → Source → Reading (Nat × List Source)
  | room + 1, .array items => .ok (room, items)
  | _, _ => .error .shape

/-- The text of a key. -/
def key : Option String → Reading String
  | some key => .ok key
  | none => .error .shape

/-- Reads a record of scalars. -/
def record : Nat → Source → Reading Record
  | room + 1, .object members => do
    let entries ← members.mapM fun (name, source) => do
      let name ← key name
      let value ← value room source
      pure (name, value)
    pure (Record.ofList entries)
  | _, _ => .error .shape

/-- Reads a direction: one of two words in any case, or one of two numbers. -/
def direction (room : Nat) (source : Source) : Reading Direction := do
  match ← json room source with
  | .string s =>
    if s.toLower = "asc" then pure .ascending
    else if s.toLower = "desc" then pure .descending
    else throw (.notADirection (.string s))
  | .number (.integer 1) => pure .ascending
  | .number (.integer (-1)) => pure .descending
  | got => throw (.notADirection got)

/-- Reads a kind of key: its word, or an object with that word as the one key and nothing in it. -/
def keyKind : Nat → Source → Reading KeyKind
  | _, .string (some "number") => .ok .number
  | _, .string (some "uuid") => .ok .uuid
  | _ + 1, .object [(some "number", .null)] => .ok .number
  | _ + 1, .object [(some "uuid", .null)] => .ok .uuid
  | _, _ => .error .shape

/-- Reads the kinds of key columns, sorted by column. -/
def keyKinds : Nat → Source → Reading (List (String × KeyKind))
  | room + 1, .object members => do
    let entries ← members.mapM fun (name, source) => do
      let name ← key name
      let kind ← keyKind room source
      pure (name, kind)
    pure (Keyed.ofList entries)
  | _, _ => .error .shape

/-! ### Forms with named members -/

/-- A member of a form that is under construction in a state: the names that it goes by and the way
it is read. -/
structure Field (σ : Type) where
  names : List String
  read : Source → σ → Reading σ

variable {σ : Type}

/-- Reads members in text order. The names in `seen` have been read. -/
def readMembers (fields : List (Field σ)) (seen : List String) (state : σ) :
    List (Option String × Source) → Reading (List String × σ)
  | [] => .ok (seen, state)
  | (name, source) :: members => do
    let name ← key name
    match fields.find? fun field => field.names.contains name with
    | none => readMembers fields seen state members
    | some field =>
      if field.names.any seen.contains then throw .shape
      let state ← field.read source state
      readMembers fields (name :: seen) state members

/-- Reads the items of an array as the members from the first on. -/
def readItems (seen : List String) (state : σ) :
    List (Field σ) → List Source → Reading (List String × σ)
  | _, [] => .ok (seen, state)
  | [], _ :: _ => .error .shape
  | field :: fields, source :: sources => do
    let state ← field.read source state
    readItems (field.names ++ seen) state fields sources

/-- Reads a form with named members, of which one is required. -/
def readFields (fields : Nat → List (Field σ)) (required : String) (state : σ) :
    Nat → Source → Reading σ
  | 0, _ => .error .shape
  | room + 1, source => do
    let (seen, state) ← match source with
      | .object members => readMembers (fields room) [] state members
      | .array items => readItems [] state (fields room) items
      | _ => throw .shape
    if seen.contains required then pure state else throw .shape

/-- The members of a sort key. -/
def sortKeyFields (room : Nat) : List (Field SortKey) :=
  [⟨["key"], fun source k => do pure { k with column := ← text source }⟩,
   ⟨["dir", "direction"], fun source k => do pure { k with direction := ← direction room source }⟩]

/-- Reads a sort key; it is ascending where no direction is given. -/
def sortKey : Nat → Source → Reading SortKey :=
  readFields sortKeyFields "key" ⟨"", .ascending⟩

/-- Reads an array of sort keys. -/
def sortKeys (room : Nat) (source : Source) : Reading (List SortKey) := do
  let (room, items) ← items room source
  items.mapM (sortKey room)

/-- The members of a scope. -/
def scopeFields (room : Nat) : List (Field Scope) :=
  [⟨["tableName"], fun source s => do pure { s with table := ← text source }⟩,
   ⟨["filter"], fun source s => do
      pure { s with filter := ← optional (filter room) source }⟩,
   ⟨["order"], fun source s => do pure { s with order := ← sortKeys room source }⟩,
   ⟨["limit"], fun source s => do pure { s with limit := ← optional count source }⟩,
   ⟨["skip"], fun source s => do pure { s with skip := ← optional count source }⟩]

/-- **Reads a scope.** -/
def scope : Nat → Source → Reading Scope :=
  readFields scopeFields "tableName" (Scope.ofTable "")

/-- Reads a form from a text, which nests as deep as texts may. -/
def ofText {α : Type} (read : Nat → Source → Reading α) (text : String) : Reading α :=
  match Source.parse? text with
  | some source => read Json.maxDepth source
  | none => .error .shape

/-- Reads a form from a value, however deep it nests. -/
def ofJson {α : Type} (read : Nat → Source → Reading α) (json : Json) : Reading α :=
  let source := Source.ofJson json
  read source.depth source

end Rowset.Form
