/-!
# Faults

Why an operation gave no answer. A fault is of one of twelve kinds and carries the words of the part
that found it; `message` is its full text.
-/

namespace Rowset

/-- The cause of a failed operation. -/
inductive Fault where
  /-- A filter is not of the filter language. -/
  | invalidFilter (detail : String)
  /-- A filter has an operator that the language lacks. -/
  | unknownOperator (name : String)
  /-- A scope cannot be carried out. -/
  | invalidScope (detail : String)
  /-- A name or a statement is not well formed. -/
  | validation (detail : String)
  /-- An answer does not have the promised form. -/
  | internal (detail : String)
  /-- The operation is not offered. -/
  | unsupported (operation : String)
  /-- The executor of statements failed. -/
  | executor (detail : String)
  /-- The server cannot be reached. -/
  | connection (detail : String)
  /-- The server or the transport refused a statement. -/
  | query (detail : String)
  /-- A cell cannot be read as a value. -/
  | decode (column detail : String)
  /-- A value cannot be written as text. -/
  | serialization (detail : String)
  /-- The pool gave no connection. -/
  | pool (detail : String)
  deriving DecidableEq, Repr

namespace Fault

/-- The text of a fault. -/
def message : Fault → String
  | .invalidFilter detail => "Invalid filter: " ++ detail
  | .unknownOperator name => "Unknown filter operator: " ++ name
  | .invalidScope detail => "Invalid scope: " ++ detail
  | .validation detail => "Validation error: " ++ detail
  | .internal detail => "Internal error: " ++ detail
  | .unsupported operation => "Not supported: " ++ operation
  | .executor detail => "Executor error: " ++ detail
  | .connection detail => "Connection error: " ++ detail
  | .query detail => "Query error: " ++ detail
  | .decode column detail => "Decode error on column '" ++ column ++ "': " ++ detail
  | .serialization detail => "Serialization error: " ++ detail
  | .pool detail => "Pool error: " ++ detail

/-- Holds of the faults that lie in what the caller asked for. -/
def isInvalidInput : Fault → Bool
  | .invalidFilter _ | .unknownOperator _ | .invalidScope _ | .validation _ => true
  | _ => false

/-- Holds of the faults that no caller can cause. -/
def isInternal : Fault → Bool
  | .internal _ => true
  | _ => false

/-- Holds of the operations that are not offered. -/
def isUnsupported : Fault → Bool
  | .unsupported _ => true
  | _ => false

end Fault

end Rowset
