import Rowset.Request

/-!
# Requests: carrying them out

A planned statement is bound and handed to an executor, unless its markers and its values differ in
number: then it is held back, the caller sees no rows, and the log says so. The executor is any
function on a state of its own, so what is said of `Request.run` holds whatever stands behind it.
-/

namespace Rowset

/-- What an executor answers to a statement, and how many microseconds it took. -/
structure Answer where
  result : Except Fault (List Record)
  elapsed : Nat

/-- What became of a request: the result, the statements that were handed to the executor, and the
log. -/
structure Report where
  result : Except Fault Reply
  sent : List Bound
  events : List Event

/-- Runs bound statements on a state. -/
abbrev Executor (σ : Type) := σ → Bound → Answer × σ

namespace Request

variable {σ : Type}

/-- Holds of the results that are no fault. -/
def succeeded {α : Type} : Except Fault α → Bool
  | .ok _ => true
  | .error _ => false

/-- Binds a statement and runs it, or holds it back. -/
def dispatch (logging : Logging) (executor : Executor σ) (state : σ) (request : Request)
    (statement : Statement) : Report × σ :=
  match statement.bind with
  | .error mismatch =>
    (⟨request.reply [], [], [.withheld (logging.excerpt statement.sql) mismatch]⟩, state)
  | .ok bound =>
    let (answer, state) := executor state bound
    let event := Event.executed logging.level (logging.excerpt bound.sql) bound.params.json
      answer.elapsed (succeeded answer.result)
    (⟨answer.result.bind request.reply, [bound], if logging.debug then [event] else []⟩, state)

/-- **Carries out a request.** At most one statement reaches the executor. -/
def run (logging : Logging) (executor : Executor σ) (state : σ) (request : Request) :
    Report × σ :=
  match request.plan with
  | .error fault => (⟨.error fault, [], request.announcement⟩, state)
  | .ok .nothing => (⟨request.reply [], [], request.announcement⟩, state)
  | .ok (.send statement) =>
    let (report, state) := dispatch logging executor state request statement
    ({ report with events := request.announcement ++ report.events }, state)

/-- Carries out requests in sequence. -/
def runAll (logging : Logging) (executor : Executor σ) (state : σ) :
    List Request → List Report × σ
  | [] => ([], state)
  | request :: requests =>
    let (report, state) := request.run logging executor state
    let (reports, state) := runAll logging executor state requests
    (report :: reports, state)

end Request

end Rowset
