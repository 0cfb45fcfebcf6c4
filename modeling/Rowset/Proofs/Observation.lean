import Rowset.Proofs.Courses
import Mathlib.Data.List.Forall2

/-!
# Logging as an observer

Requests in sequence are carried out twice, with two ways of logging and by two executors that give
the same answers to the statements of the first run. Then the two runs give the same results, send
the same statements and note the same mismatches and the same batches of records: they differ at
most in the entries for statements that were run, and in how a statement is cut for the log
(`Report.Alike`). The executors may have states of different kinds and take different times.

The entries for statements that were run are all told from what is sent (`timings`): with debugging
there is one for each statement, in order, and without it there is none.

Both are shown for one request first, and then carried along the sequence by what the executors
answer to a sequence that is sent in two parts (`answers_append`, `timings_append`).
-/

namespace Rowset

/-! ### Executors -/

namespace Executor

variable {σ τ : Type}

/-- The state that is left when some statements have been run. -/
def after (executor : Executor σ) (state : σ) (statements : List Bound) : σ :=
  statements.foldl (fun state bound => (executor state bound).2) state

/-- What an executor answers to some statements. -/
def answers (executor : Executor σ) (state : σ) : List Bound → List Answer
  | [] => []
  | bound :: statements =>
    (executor state bound).1 :: answers executor (executor state bound).2 statements

/-- **Two executors give the same answers** to some statements; the times may differ. -/
def Agree (executor : Executor σ) (state : σ) (executor' : Executor τ) (state' : τ)
    (statements : List Bound) : Prop :=
  (answers executor state statements).map (·.result) =
    (answers executor' state' statements).map (·.result)

theorem length_answers (executor : Executor σ) (state : σ) (statements : List Bound) :
    (answers executor state statements).length = statements.length := by
  induction statements generalizing state with
  | nil => rfl
  | cons bound statements ih => rw [answers, List.length_cons, ih, List.length_cons]

theorem answers_append (executor : Executor σ) (state : σ) (first rest : List Bound) :
    answers executor state (first ++ rest) =
      answers executor state first ++ answers executor (after executor state first) rest := by
  induction first generalizing state with
  | nil => rfl
  | cons bound first ih => rw [List.cons_append, answers, ih, answers, List.cons_append]; rfl

theorem agree_append {executor : Executor σ} {state : σ} {executor' : Executor τ} {state' : τ}
    {first rest : List Bound} (h : Agree executor state executor' state' (first ++ rest)) :
    Agree executor state executor' state' first ∧
      Agree executor (after executor state first) executor' (after executor' state' first)
        rest := by
  unfold Agree at h
  rw [answers_append, answers_append, List.map_append, List.map_append] at h
  refine List.append_inj h ?_
  rw [List.length_map, List.length_map, length_answers, length_answers]

end Executor

/-! ### Entries of the log -/

namespace Event

/-- Holds of the entries for statements that were run. -/
def isTiming : Event → Bool
  | .executed .. => true
  | _ => false

/-- Holds of the entries for records that are about to be added. -/
def isInsertion : Event → Bool
  | .insertion .. => true
  | _ => false

/-- The mismatch for which a statement was held back. -/
def mismatch? : Event → Option Mismatch
  | .withheld _ mismatch => some mismatch
  | _ => none

end Event

/-- **Two reports that differ at most in how statements are logged.** -/
structure Report.Alike (a b : Report) : Prop where
  result : a.result = b.result
  sent : a.sent = b.sent
  /-- The same mismatches are noted. -/
  mismatches : a.events.filterMap Event.mismatch? = b.events.filterMap Event.mismatch?
  /-- The same batches are noted. -/
  insertions : a.events.filter Event.isInsertion = b.events.filter Event.isInsertion

namespace Request

variable {σ τ : Type}

/-- The entry for a statement that was run: at the level that is set, with the statement as it is
cut for the log, all parameters, the time, and whether the executor succeeded. -/
def timing (logging : Logging) (bound : Bound) (answer : Answer) : Event :=
  .executed logging.level (logging.excerpt bound.sql) bound.params.json answer.elapsed
    (succeeded answer.result)

/-- **The entries for statements that are run,** one for each and in order. -/
def timings (logging : Logging) (executor : Executor σ) (state : σ) : List Bound → List Event
  | [] => []
  | bound :: statements =>
    timing logging bound (executor state bound).1 ::
      timings logging executor (executor state bound).2 statements

theorem timings_append (logging : Logging) (executor : Executor σ) (state : σ)
    (first rest : List Bound) :
    timings logging executor state (first ++ rest) =
      timings logging executor state first ++
        timings logging executor (executor.after state first) rest := by
  induction first generalizing state with
  | nil => rfl
  | cons bound first ih => rw [List.cons_append, timings, ih, timings, List.cons_append]; rfl

/-! ### One request -/

section Run
variable (logging : Logging) (executor : Executor σ) (state : σ) {r : Request}

theorem run_refused {fault : Fault} (h : r.plan = .error fault) :
    r.run logging executor state = (⟨.error fault, [], r.announcement⟩, state) := by
  unfold run
  rw [h]

theorem run_nothing (h : r.plan = .ok .nothing) :
    r.run logging executor state = (⟨r.reply [], [], r.announcement⟩, state) := by
  unfold run
  rw [h]

theorem run_withheld {st : Statement} {mismatch : Mismatch} (h : r.plan = .ok (.send st))
    (hbind : st.bind = .error mismatch) :
    r.run logging executor state = (⟨r.reply [], [],
      r.announcement ++ [.withheld (logging.excerpt st.sql) mismatch]⟩, state) := by
  unfold run dispatch
  rw [h]
  dsimp only
  rw [hbind]

theorem run_sent {st : Statement} {bound : Bound} (h : r.plan = .ok (.send st))
    (hbind : st.bind = .ok bound) :
    r.run logging executor state =
      (⟨(executor state bound).1.result.bind r.reply, [bound], r.announcement ++
          if logging.debug then [timing logging bound (executor state bound).1] else []⟩,
        (executor state bound).2) := by
  unfold run dispatch
  rw [h]
  dsimp only
  rw [hbind]
  rfl

/-- The result of a request whose statement was run is made of what the executor has answered. -/
theorem result_of_sent {bound : Bound} (h : (r.run logging executor state).1.sent = [bound]) :
    (r.run logging executor state).1.result = (executor state bound).1.result.bind r.reply := by
  cases hplan : r.plan with
  | error fault =>
    rw [run_refused _ _ _ hplan] at h
    cases h
  | ok plan =>
    cases plan with
    | nothing =>
      rw [run_nothing _ _ _ hplan] at h
      cases h
    | send st =>
      cases hbind : st.bind with
      | error mismatch =>
        rw [run_withheld _ _ _ hplan hbind] at h
        cases h
      | ok other =>
        rw [run_sent _ _ _ hplan hbind] at h ⊢
        cases h
        rfl

variable (r)

theorem state_run : (r.run logging executor state).2 =
    executor.after state (r.run logging executor state).1.sent := by
  obtain ⟨hsent, hstate⟩ := (shows_run logging executor (takes_course r) state).sent
  rw [hsent]
  exact hstate

theorem filter_isTiming_announcement : r.announcement.filter Event.isTiming = [] := by
  cases r with
  | insertAll table records keys =>
    rw [announcement]
    split
    · split_ifs <;> rfl
    · rfl
  | query | count | select | updateAll | deleteAll | execute => rfl

/-- The entries of one request for the statement that was run. -/
theorem timings_run : (r.run logging executor state).1.events.filter Event.isTiming =
    if logging.debug then timings logging executor state (r.run logging executor state).1.sent
    else [] := by
  have hnone : (if logging.debug then timings logging executor state [] else []) = [] := by
    split_ifs <;> rfl
  cases hplan : r.plan with
  | error fault => rw [run_refused _ _ _ hplan, filter_isTiming_announcement, hnone]
  | ok plan =>
    cases plan with
    | nothing => rw [run_nothing _ _ _ hplan, filter_isTiming_announcement, hnone]
    | send st =>
      cases hbind : st.bind with
      | error mismatch =>
        rw [run_withheld _ _ _ hplan hbind, List.filter_append, filter_isTiming_announcement,
          hnone]
        rfl
      | ok bound =>
        rw [run_sent _ _ _ hplan hbind, List.filter_append, filter_isTiming_announcement,
          List.nil_append]
        split_ifs <;> rfl

end Run

variable (logging logging' : Logging)
variable {executor : Executor σ} {executor' : Executor τ} {state : σ} {state' : τ}

/-- **One request is reported alike** when its statement is answered alike. -/
theorem alike_run {r : Request} (h : executor.Agree state executor' state'
    (r.run logging executor state).1.sent) :
    (r.run logging executor state).1.Alike (r.run logging' executor' state').1 := by
  cases hplan : r.plan with
  | error fault =>
    rw [run_refused _ _ _ hplan, run_refused _ _ _ hplan]
    exact ⟨rfl, rfl, rfl, rfl⟩
  | ok plan =>
    cases plan with
    | nothing =>
      rw [run_nothing _ _ _ hplan, run_nothing _ _ _ hplan]
      exact ⟨rfl, rfl, rfl, rfl⟩
    | send st =>
      cases hbind : st.bind with
      | error mismatch =>
        rw [run_withheld _ _ _ hplan hbind, run_withheld _ _ _ hplan hbind]
        refine ⟨rfl, rfl, ?_, ?_⟩
        · rw [List.filterMap_append, List.filterMap_append]
          rfl
        · rw [List.filter_append, List.filter_append]
          rfl
      | ok bound =>
        rw [run_sent _ _ _ hplan hbind] at h
        have hresult : (executor state bound).1.result = (executor' state' bound).1.result :=
          (List.cons.inj h).1
        rw [run_sent _ _ _ hplan hbind, run_sent _ _ _ hplan hbind, hresult]
        refine ⟨rfl, rfl, ?_, ?_⟩
        · rw [List.filterMap_append, List.filterMap_append]
          split_ifs <;> rfl
        · rw [List.filter_append, List.filter_append]
          split_ifs <;> rfl

/-! ### Requests in sequence -/

theorem runAll_cons (r : Request) (requests : List Request) :
    runAll logging executor state (r :: requests) =
      ((r.run logging executor state).1 ::
          (runAll logging executor (r.run logging executor state).2 requests).1,
        (runAll logging executor (r.run logging executor state).2 requests).2) := rfl

theorem alike_runAll {requests : List Request} (h : executor.Agree state executor' state'
    ((runAll logging executor state requests).1.flatMap (·.sent))) :
    List.Forall₂ Report.Alike (runAll logging executor state requests).1
      (runAll logging' executor' state' requests).1 := by
  induction requests generalizing state state' with
  | nil => exact .nil
  | cons r requests ih =>
    rw [runAll_cons, List.flatMap_cons] at h
    obtain ⟨hfirst, hrest⟩ := Executor.agree_append h
    have halike := alike_run logging logging' hfirst
    rw [runAll_cons, runAll_cons]
    refine .cons halike (ih ?_)
    rw [← state_run, halike.sent, ← state_run] at hrest
    exact hrest

theorem timings_runAll (executor : Executor σ) (state : σ) (requests : List Request) :
    ((runAll logging executor state requests).1.flatMap (·.events)).filter Event.isTiming =
      if logging.debug then
        timings logging executor state ((runAll logging executor state requests).1.flatMap (·.sent))
      else [] := by
  induction requests generalizing state with
  | nil => simp [runAll, timings]
  | cons r requests ih =>
    rw [runAll_cons, List.flatMap_cons, List.flatMap_cons, List.filter_append, ih, timings_run,
      timings_append, ← state_run]
    split_ifs <;> rfl

/-- **Logging is an observer.** However two runs of the same requests are logged, they give the same
results, send the same statements and note the same mismatches and batches, as long as the
statements are answered alike. The entries for statements that were run are one for each statement
that was sent, or none without debugging. -/
theorem runAll_observed (requests : List Request) (h : executor.Agree state executor' state'
    ((runAll logging executor state requests).1.flatMap (·.sent))) :
    List.Forall₂ Report.Alike (runAll logging executor state requests).1
        (runAll logging' executor' state' requests).1 ∧
      ((runAll logging executor state requests).1.flatMap (·.events)).filter Event.isTiming =
        (if logging.debug then timings logging executor state
          ((runAll logging executor state requests).1.flatMap (·.sent)) else []) ∧
      ((runAll logging' executor' state' requests).1.flatMap (·.events)).filter Event.isTiming =
        (if logging'.debug then timings logging' executor' state'
          ((runAll logging' executor' state' requests).1.flatMap (·.sent)) else []) :=
  ⟨alike_runAll logging logging' h, timings_runAll logging executor state requests,
    timings_runAll logging' executor' state' requests⟩

/-- An executor that finds a row once and fails from then on. -/
def failingExecutor : Executor Bool :=
  fun fresh _ =>
    (⟨if fresh then .ok [.ofList [("count", .int 2)]] else .error (.executor "gone"), 2⟩, false)

/-- The same answers by an executor that counts and takes its time. -/
def countingExecutor : Executor Nat :=
  fun n _ =>
    (⟨if n = 0 then .ok [.ofList [("count", .int 2)]] else .error (.executor "gone"), 1500⟩, n + 1)

/-- Statements that are run are logged, up to 19 bytes. -/
def shortLogging : Logging :=
  ⟨true, .info, some 19⟩

/-- A batch, a request that is refused, one that is held back, and one that fails. -/
def mixedRequests : List Request :=
  [.insertAll "t" [.ofList [("\"é\"", .text "ü")]] [("id", .uuid)],
   .select (.ofTable "t") ["no name"],
   .query { Scope.ofTable "t" with filter := some (.fragment "a = ?" []) },
   .count { Scope.ofTable "t" with filter := some (.equals "a" (.int 1)) }]

theorem runAll_observed_mixedRequests :
    failingExecutor.Agree true countingExecutor 0
        ((runAll shortLogging failingExecutor true mixedRequests).1.flatMap (·.sent)) ∧
      List.Forall₂ Report.Alike
        (runAll shortLogging failingExecutor true mixedRequests).1
        (runAll .standard countingExecutor 0 mixedRequests).1 ∧
      ((runAll shortLogging failingExecutor true mixedRequests).1.flatMap
          (·.events)).filter Event.isTiming =
        [.executed .info "INSERT INTO \"t\" (\"..." "\x7b\"param0\":\"ü\"\x7d" 2 true,
         .executed .info "SELECT COUNT(*) AS ..." "\x7b\"param0\":1\x7d" 2 false] ∧
      ((runAll .standard countingExecutor 0 mixedRequests).1.flatMap (·.events)).filter
        Event.isTiming = [] := by
  have hagree : failingExecutor.Agree true countingExecutor 0
      ((runAll shortLogging failingExecutor true mixedRequests).1.flatMap
        (·.sent)) := by
    unfold Executor.Agree
    decide +kernel
  obtain ⟨halike, htimings, htimings'⟩ :=
    runAll_observed shortLogging .standard mixedRequests hagree
  refine ⟨hagree, halike, ?_, htimings'⟩
  rw [htimings]
  decide +kernel

end Request

end Rowset
