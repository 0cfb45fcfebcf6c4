import Rowset.Json.Token
import Rowset.Keyed

/-!
# Json: the tree of a text

`Source.parse?` reads the grammar and nothing more. Members stand in text order with repetitions,
and a number or a string that stands for nothing is marked as such, so a reader can leave out a part
of the tree without judging it. `Source.toJson?` judges the whole: everything has to stand for
something, and nesting has to stay within the room that is given.
-/

namespace Rowset.Json

/-- A tree in text order. -/
inductive Source where
  | null
  | bool (value : Bool)
  | number (value : Option Number)
  | string (text : Option String)
  | array (items : List Source)
  | object (members : List (Option String × Source))

namespace Source

/-! ### Reading the grammar -/

/-- Holds of the four characters that may stand between tokens. -/
def isSpace (c : Char) : Bool :=
  c == ' ' || c == '\t' || c == '\n' || c == '\x0d'

/-- Drops the space before the next token. -/
def skipSpace (cs : List Char) : List Char :=
  cs.dropWhile isSpace

/-- Drops a given word from the front. -/
def word? : List Char → List Char → Option (List Char)
  | [], cs => some cs
  | w :: ws, c :: cs => if w = c then word? ws cs else none
  | _ :: _, [] => none

mutual

/-- Takes a value that starts at the first character. -/
def value? : Nat → List Char → Option (Source × List Char)
  | 0, _ => none
  | fuel + 1, cs =>
    match cs with
    | '"' :: cs =>
      (Token.quoted? [] cs).map fun (raw, rest) => (.string (Token.unescape? [] raw), rest)
    | '[' :: cs =>
      match skipSpace cs with
      | ']' :: rest => some (.array [], rest)
      | cs => (items? fuel cs).map fun (items, rest) => (.array items, rest)
    | '\x7b' :: cs =>
      match skipSpace cs with
      | '\x7d' :: rest => some (.object [], rest)
      | cs => (members? fuel cs).map fun (members, rest) => (.object members, rest)
    | 'n' :: cs => (word? ['u', 'l', 'l'] cs).map fun rest => (.null, rest)
    | 't' :: cs => (word? ['r', 'u', 'e'] cs).map fun rest => (.bool true, rest)
    | 'f' :: cs => (word? ['a', 'l', 's', 'e'] cs).map fun rest => (.bool false, rest)
    | cs => (Token.number? cs).map fun (literal, rest) => (.number literal.number?, rest)

/-- Takes one or more values up to the closing bracket. -/
def items? : Nat → List Char → Option (List Source × List Char)
  | 0, _ => none
  | fuel + 1, cs => do
    let (item, rest) ← value? fuel cs
    match skipSpace rest with
    | ',' :: rest =>
      let (items, rest) ← items? fuel (skipSpace rest)
      pure (item :: items, rest)
    | ']' :: rest => pure ([item], rest)
    | _ => none

/-- Takes one or more members up to the closing brace. -/
def members? : Nat → List Char → Option (List (Option String × Source) × List Char)
  | 0, _ => none
  | fuel + 1, '"' :: cs => do
    let (key, rest) ← Token.quoted? [] cs
    match skipSpace rest with
    | ':' :: rest =>
      let (value, rest) ← value? fuel (skipSpace rest)
      match skipSpace rest with
      | ',' :: rest =>
        let (members, rest) ← members? fuel (skipSpace rest)
        pure ((Token.unescape? [] key, value) :: members, rest)
      | '\x7d' :: rest => pure ([(Token.unescape? [] key, value)], rest)
      | _ => none
    | _ => none
  | _ + 1, _ => none

end

/-- **Reads a text as one value** with nothing but space around it. Each nested call starts behind
a character that the call above has taken, so the length bounds the depth. -/
def parse? (text : String) : Option Source :=
  let cs := text.toList
  match value? (cs.length + 1) (skipSpace cs) with
  | some (value, rest) => if (skipSpace rest).isEmpty then some value else none
  | none => none

/-! ### What a tree stands for -/

mutual

/-- The value of a tree that nests at most `room` levels deep. -/
def toJson? : Nat → Source → Option Json
  | _, .null => some .null
  | _, .bool b => some (.bool b)
  | _, .number n => n.map .number
  | _, .string s => s.map .string
  | 0, .array _ => none
  | room + 1, .array items => (toItems? room items).map .array
  | 0, .object _ => none
  | room + 1, .object members =>
    (toMembers? room members).map fun members => .object (Keyed.ofList members)

/-- The values of the items of an array. -/
def toItems? : Nat → List Source → Option (List Json)
  | _, [] => some []
  | room, item :: items => do
    let value ← toJson? room item
    let values ← toItems? room items
    pure (value :: values)

/-- The values of the members of an object, in text order. -/
def toMembers? : Nat → List (Option String × Source) → Option (List (String × Json))
  | _, [] => some []
  | room, (key, item) :: members => do
    let key ← key
    let value ← toJson? room item
    let members ← toMembers? room members
    pure ((key, value) :: members)

end

mutual

/-- The tree in which a value is written. -/
def ofJson : Json → Source
  | .null => .null
  | .bool b => .bool b
  | .number n => .number (some n)
  | .string s => .string (some s)
  | .array items => .array (ofItems items)
  | .object members => .object (ofMembers members)

/-- The trees of the items of an array. -/
def ofItems : List Json → List Source
  | [] => []
  | item :: items => ofJson item :: ofItems items

/-- The trees of the members of an object. -/
def ofMembers : List (String × Json) → List (Option String × Source)
  | [] => []
  | (key, value) :: members => (some key, ofJson value) :: ofMembers members

end

mutual

/-- How many levels of arrays and objects a tree has. -/
def depth : Source → Nat
  | .array items => itemsDepth items + 1
  | .object members => membersDepth members + 1
  | _ => 0

/-- The depth of the deepest item. -/
def itemsDepth : List Source → Nat
  | [] => 0
  | item :: items => max (depth item) (itemsDepth items)

/-- The depth of the deepest member. -/
def membersDepth : List (Option String × Source) → Nat
  | [] => 0
  | (_, value) :: members => max (depth value) (membersDepth members)

end

end Source

/-- How many levels of arrays and objects a text may have. -/
def maxDepth : Nat := 127

/-- **Reads a text as a value.** -/
def parse? (text : String) : Option Json :=
  match Source.parse? text with
  | some source => source.toJson? maxDepth
  | none => none

end Rowset.Json
