/-!
# The wire: types

The types that a server gives to parameters and columns. What matters of a type is the shape of its
values on the wire; its name and schema are for the words of a fault.
-/

namespace Rowset.Wire

/-- The shapes of values on the wire. -/
inductive Shape where
  | bool
  /-- Signed integers of two, four or eight bytes. -/
  | int2
  | int4
  | int8
  /-- Row ids, which are unsigned and of four bytes. -/
  | oid
  | float4
  | float8
  | numeric
  | text
  | bytes
  | json
  /-- Structured values with a version byte before them. -/
  | jsonb
  | uuid
  | timestamp
  | timestamptz
  | date
  /-- Labels of an enumeration. -/
  | labels (labels : List String)
  /-- Bytes that are not interpreted. -/
  | unmapped
  deriving DecidableEq, Repr

/-- A type of a server. -/
structure SqlType where
  name : String
  schema : String
  shape : Shape
  deriving DecidableEq, Repr

namespace SqlType

/-- The schema of the types that every server has. -/
def builtinSchema : String := "pg_catalog"

/-- The shape of a type that every server has. -/
def builtinShape : String → Shape
  | "bool" => .bool
  | "int2" => .int2
  | "int4" => .int4
  | "int8" => .int8
  | "oid" => .oid
  | "float4" => .float4
  | "float8" => .float8
  | "numeric" => .numeric
  | "text" | "varchar" | "bpchar" | "name" | "unknown" => .text
  | "bytea" => .bytes
  | "json" => .json
  | "jsonb" => .jsonb
  | "uuid" => .uuid
  | "timestamp" => .timestamp
  | "timestamptz" => .timestamptz
  | "date" => .date
  | _ => .unmapped

/-- A type that every server has, by its name. -/
def builtin (name : String) : SqlType :=
  ⟨name, builtinSchema, builtinShape name⟩

/-- An enumeration with its labels. -/
def enumeration (schema name : String) (labels : List String) : SqlType :=
  ⟨name, schema, .labels labels⟩

/-- A type of which only the name is known. -/
def unmapped (schema name : String) : SqlType :=
  ⟨name, schema, .unmapped⟩

/-- The name of a type, behind its schema unless that is searched anyway. -/
def display (t : SqlType) : String :=
  if t.schema = "public" ∨ t.schema = builtinSchema then t.name else t.schema ++ "." ++ t.name

end SqlType

end Rowset.Wire
