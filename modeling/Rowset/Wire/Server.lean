import Rowset.Request.Run
import Rowset.Wire.Decode
import Rowset.Wire.Encode

/-!
# The wire: exchanges with a server

An executor that speaks to a server. Placeholders are numbered, each parameter is written as the
type that the server has inferred for it, and the rows that come back are read by their columns. The
server is described by how it answers: whether it takes the connection and the statement, the types
of the parameters, and the result. On the wire a statement ends with NUL, so one that holds a NUL is
not sent.

What went wrong on the wire is told by the kind of a fault. Its words would be those of the
transport and are arbitrary here.
-/

namespace Rowset.Wire

/-- Ways to reach a server. -/
inductive Route where
  /-- A connection of one's own. -/
  | direct
  /-- A connection out of a pool. -/
  | pooled
  deriving DecidableEq, Repr

/-- The fault of a connection that is not made. The kind is given by the route, the words are
arbitrary. -/
def Route.refusal : Route → Fault
  | .direct => .query "connection closed"
  | .pooled => .pool "no connection available"

/-- How a server answers to a statement. -/
structure Server where
  /-- The server refuses the connection. -/
  refuses : Bool
  /-- The server rejects the statement. -/
  rejects : Bool
  parameters : List SqlType
  columns : List Column
  rows : List (List Cell)

/-- What has reached a server: the text of a statement and, if it came to that, its parameters. -/
structure Delivery where
  sql : String
  parameters : Option (List Cell)
  deriving DecidableEq

namespace Server

/-- The parameters as the types that the server has inferred, if their number and all of them fit.
The words of the faults are arbitrary. -/
def encodeParameters (s : Server) (params : Parameters) : Except Fault (List Cell) :=
  if s.parameters.length = params.length then
    (s.parameters.zip params.values).mapM fun (type, value) =>
      match encode type value with
      | .ok cell => .ok cell
      | .error _ => .error (.query "error serializing parameter")
  else .error (.query "unexpected number of parameters")

/-- Makes the connection that a route begins with; a pool makes one only for a statement. -/
def connect (s : Server) (route : Route) : Except Fault Unit :=
  match route with
  | .direct => if s.refuses then .error route.refusal else .ok ()
  | .pooled => .ok ()

/-- Sends a bound statement and reads the result. A statement that is not sent, or that the server
rejects, is a fault of a query with arbitrary words. -/
def exchange (s : Server) (route : Route) (bound : Bound) :
    Except Fault (List Record) × List Delivery :=
  let sql := toPositional bound.params bound.sql
  if s.refuses then (.error route.refusal, [])
  else if '\x00' ∈ sql.toList then (.error (.query "error encoding message to server"), [])
  else if s.rejects then (.error (.query "db error"), [⟨sql, none⟩])
  else
    match s.encodeParameters bound.params with
    | .error fault => (.error fault, [⟨sql, none⟩])
    | .ok cells => (decodeRows s.columns s.rows, [⟨sql, some cells⟩])

/-- **The executor of a server,** which keeps what has been delivered. -/
def executor (s : Server) (route : Route) : Executor (List Delivery) := fun delivered bound =>
  let (result, new) := s.exchange route bound
  (⟨result, 0⟩, delivered ++ new)

end Server

end Rowset.Wire
