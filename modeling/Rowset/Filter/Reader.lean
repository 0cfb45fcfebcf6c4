import Rowset.Filter
import Rowset.Json.Printer

/-!
# Filters: reading structured values

An object none of whose keys starts with `$` gives values to columns. Any other object has one key,
which is an operator, and the operator says what its payload is made of. `Filter.ofJson` reads a
filter or says what is wrong with the first part that is none.
-/

namespace Rowset.Filter

/-- What is wrong with a structured value that is no filter. -/
inductive Problem where
  | notAnObject (got : Json)
  | severalOperators (keys : List String)
  | notAnArray (op : String)
  | notAnEntry (op : String)
  | severalColumns (op : String) (count : Nat)
  | notAList (op column : String)
  | notAScalar (op column : String) (got : Json)
  | notAColumn (op : String)
  | notBounds (op column : String)
  | strayBound (op column key : String)
  | missingBound (op column key : String)
  | notAFragment
  | strayFragmentKey (key : String)
  | missingQuery
  | deferredText
  | unknownOperator (op : String)

/-- The words for what is wrong. -/
def Problem.message : Problem → String
  | .notAnObject got => "filter must be an object, got " ++ got.print
  | .severalOperators keys =>
    "operator filter must have exactly one key, got [" ++ String.intercalate ", " keys ++ "]"
  | .notAnArray op => op ++ " expects an array of filters"
  | .notAnEntry op => op ++ " expects an object \x7bcolumn: ...\x7d"
  | .severalColumns op count => op ++ " expects exactly one column, got " ++ toString count
  | .notAList op column => op ++ ": '" ++ column ++ "' expects an array of values"
  | .notAScalar op column got =>
    op ++ ": value for '" ++ column ++ "' must be a scalar, got " ++ got.print
  | .notAColumn op => op ++ " expects a column name"
  | .notBounds op column => op ++ ": '" ++ column ++ "' expects \x7bfrom, to\x7d"
  | .strayBound op column key =>
    op ++ ": unexpected key '" ++ key ++ "' in bounds of '" ++ column ++ "'"
  | .missingBound op column key => op ++ ": '" ++ column ++ "' is missing '" ++ key ++ "'"
  | .notAFragment => "$raw expects an object \x7b$query, $bindings\x7d"
  | .strayFragmentKey key => "$raw: unexpected key '" ++ key ++ "'"
  | .missingQuery => "$raw requires a string $query"
  | .deferredText => "$async filters cannot be expressed in JSON; use Filter::deferred"
  | .unknownOperator op => op

/-- The fault that a problem is. -/
def Problem.fault : Problem → Fault
  | .unknownOperator op => .unknownOperator op
  | problem => .invalidFilter problem.message

/-- Holds of the keys that are operators. -/
def isOperator (key : String) : Bool :=
  key.toList.head? == some '$'

/-- Reads a scalar. -/
def readScalar (op column : String) (json : Json) : Except Problem Value :=
  match Value.ofJson? json with
  | some value => .ok value
  | none => .error (.notAScalar op column json)

/-- Reads an array of scalars. -/
def readScalars (op column : String) : Json → Except Problem (List Value)
  | .array items => items.mapM (readScalar op column)
  | _ => .error (.notAList op column)

/-- Reads an object with one key, which is a column. -/
def readEntry (op : String) : Json → Except Problem (String × Json)
  | .object [entry] => .ok entry
  | .object members => .error (.severalColumns op members.length)
  | _ => .error (.notAnEntry op)

/-- Reads a column with a list of scalars. -/
def readMembership (op : String) (payload : Json) : Except Problem (String × List Value) := do
  let (column, list) ← readEntry op payload
  let values ← readScalars op column list
  pure (column, values)

/-- Reads a column with one scalar. -/
def readComparison (op : String) (payload : Json) : Except Problem (String × Value) := do
  let (column, json) ← readEntry op payload
  let value ← readScalar op column json
  pure (column, value)

/-- Reads one of the two bounds of a range. -/
def readBound (op column key : String) (bounds : List (String × Json)) : Except Problem Value :=
  match bounds.lookup key with
  | some json => readScalar op column json
  | none => .error (.missingBound op column key)

/-- Reads a column with the bounds of a range, and with nothing beside them. -/
def readRange (op : String) (payload : Json) : Except Problem (String × Value × Value) := do
  let (column, json) ← readEntry op payload
  match json with
  | .object bounds =>
    match bounds.find? fun (key, _) => key != "from" && key != "to" with
    | some (key, _) => throw (.strayBound op column key)
    | none =>
      let low ← readBound op column "from" bounds
      let high ← readBound op column "to" bounds
      pure (column, low, high)
  | _ => throw (.notBounds op column)

/-- Reads the text of a column. -/
def readColumn (op : String) : Json → Except Problem String
  | .string column => .ok column
  | _ => .error (.notAColumn op)

/-- The entry of a key that may be spelled with or without `$`; the spelling with `$` is looked for
first. -/
def sigilMember? (key : String) (members : List (String × Json)) : Option Json :=
  (members.lookup ("$" ++ key)).or (members.lookup key)

/-- Reads a fragment with its values, which may be left out. -/
def readFragment : Json → Except Problem Filter
  | .object members =>
    let known := ["$query", "query", "$bindings", "bindings"]
    match members.find? fun (key, _) => !known.contains key with
    | some (key, _) => .error (.strayFragmentKey key)
    | none =>
      match sigilMember? "query" members with
      | some (.string sql) =>
        match sigilMember? "bindings" members with
        | none => .ok (.fragment sql [])
        | some .null => .ok (.fragment sql [])
        | some list => (readScalars "$raw" "$bindings" list).map (.fragment sql)
      | _ => .error .missingQuery
  | _ => .error .notAFragment

/-- Reads a record of scalars. -/
def readProperties (members : List (String × Json)) : Except Problem Filter := do
  let entries ← members.mapM fun (column, json) => do
    let value ← readScalar "equality" column json
    pure (column, value)
  pure (.properties (Record.ofList entries))

/-- Reads the payload of an operator that holds no filters. -/
def readOperator (op : String) (payload : Json) : Except Problem Filter :=
  match op with
  | "$in" => (readMembership op payload).map fun (column, values) => .oneOf column values
  | "$notIn" => (readMembership op payload).map fun (column, values) => .noneOf column values
  | "$null" => (readColumn op payload).map .missing
  | "$notNull" => (readColumn op payload).map .present
  | "$between" => (readRange op payload).map fun (column, low, high) => .between column low high
  | "$notBetween" => (readRange op payload).map fun (column, low, high) => .outside column low high
  | "$gt" => (readComparison op payload).map fun (column, value) => .bounded .above column value
  | "$gte" => (readComparison op payload).map fun (column, value) => .bounded .atLeast column value
  | "$lt" => (readComparison op payload).map fun (column, value) => .bounded .below column value
  | "$lte" => (readComparison op payload).map fun (column, value) => .bounded .atMost column value
  | "$raw" => readFragment payload
  | "$async" => .error .deferredText
  | op => .error (.unknownOperator op)

mutual

/-- **Reads a filter.** -/
def ofJson : Json → Except Problem Filter
  | .object members =>
    if members.any fun (key, _) => isOperator key then
      match members with
      | [("$and", .array items)] => (ofItems items).map .all
      | [("$or", .array items)] => (ofItems items).map .any
      | [("$and", _)] => .error (.notAnArray "$and")
      | [("$or", _)] => .error (.notAnArray "$or")
      | [("$not", payload)] => (ofJson payload).map .not
      | [(op, payload)] => readOperator op payload
      | members => .error (.severalOperators (members.map (·.1)))
    else readProperties members
  | json => .error (.notAnObject json)

/-- Reads filters in order, up to the first that is none. -/
def ofItems : List Json → Except Problem (List Filter)
  | [] => .ok []
  | item :: items => do
    let filter ← ofJson item
    let filters ← ofItems items
    pure (filter :: filters)

end

end Rowset.Filter
