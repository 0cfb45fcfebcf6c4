import Rowset.Proofs.Refusal

/-!
# The course of a request

A request takes one of five courses (`Course`), and `Request.Takes` says which from the request
alone: it is refused for the first thing that is wrong with it, its statement is held back, its
statement is bound and sent, there is nothing to send, or it is not offered. No request takes two
(`takes_iff`).

`Course.Shows` says what each course shows to the caller, to the executor and in the log. Only one
course reaches the executor, with one statement, and what comes back is handed on as it is
(`Request.Answers`). So over a sequence of requests the executor receives the statements of that
course, in order, and nothing else changes its state (`run_takes_course`).
-/

namespace Rowset

/-- What can become of a request. -/
inductive Course where
  /-- Something is wrong with it. -/
  | refused (fault : Fault)
  /-- Its statement has more or fewer markers than values and is held back. -/
  | withheld (statement : Statement)
  /-- Its statement is bound and sent. -/
  | sent (bound : Bound)
  /-- There is nothing to send. -/
  | idle
  /-- It is not offered. -/
  | unsupported

/-- The statement that reaches the executor. -/
def Course.sent? : Course → Option Bound
  | .sent bound => some bound
  | _ => none

namespace Request

/-! ### The five courses -/

/-- **A request takes a course.** -/
inductive Takes : Request → Course → Prop where
  | refused {r : Request} {fault : Fault} (h : r.Fails fault) : Takes r (.refused fault)
  | withheld {r : Request} {b : Builder} (h : r.Builds b)
      (hodd : b.statement.markerCount ≠ b.statement.bindings.length) :
      Takes r (.withheld b.statement)
  | sent {r : Request} {b : Builder} {bound : Bound} (h : r.Builds b)
      (hbind : b.statement.bind = .ok bound) : Takes r (.sent bound)
  | idle {table : String} {keys : List (String × KeyKind)} {name : Name}
      (h : Name.parse table = .ok name) : Takes (.insertAll table [] keys) .idle
  | unsupported {sql : String} : Takes (.execute sql) .unsupported

theorem Builds.ne_execute {r : Request} {b : Builder} (h : r.Builds b) :
    ∀ sql, r ≠ .execute sql := by
  rintro sql rfl
  cases h

/-- The course of the requests that are offered, by their plan. -/
def courseOfPlan : Except Fault Plan → Course
  | .error fault => .refused fault
  | .ok .nothing => .idle
  | .ok (.send st) =>
    match st.bind with
    | .error _ => .withheld st
    | .ok bound => .sent bound

/-- The course of a request. -/
def course : Request → Course
  | .execute _ => .unsupported
  | r => courseOfPlan r.plan

theorem not_fails_execute {sql : String} {fault : Fault} : ¬ (execute sql).Fails fault := by
  intro h
  cases h with
  | scope hscope => cases hscope
  | column hscope => cases hscope

theorem course_eq {r : Request} (hoffered : ∀ sql, r ≠ .execute sql) :
    r.course = courseOfPlan r.plan := by
  cases r with
  | execute sql => exact absurd rfl (hoffered sql)
  | query | count | select | updateAll | deleteAll | insertAll => rfl

theorem course_eq_of_takes {r : Request} {c : Course} (h : r.Takes c) : c = r.course := by
  cases h with
  | refused h =>
    have hoffered : ∀ sql, r ≠ .execute sql := by
      rintro sql rfl
      exact not_fails_execute h
    rw [course_eq hoffered, (plan_eq_error_iff hoffered).mpr h, courseOfPlan]
  | withheld h hodd =>
    rw [course_eq h.ne_execute, plan_of_builds h, courseOfPlan, Statement.bind, if_neg hodd]
  | sent h hbind => rw [course_eq h.ne_execute, plan_of_builds h, courseOfPlan, hbind]
  | @idle table keys name h =>
    have hplan := plan_eq_nothing_iff.mpr ⟨table, keys, name, rfl, h⟩
    rw [course_eq (by simp), hplan, courseOfPlan]
  | unsupported => rfl

theorem takes_course (r : Request) : r.Takes r.course := by
  by_cases hoffered : ∀ sql, r ≠ .execute sql
  · rw [course_eq hoffered]
    cases hplan : r.plan with
    | error fault => exact .refused ((plan_eq_error_iff hoffered).mp hplan)
    | ok plan =>
      cases plan with
      | nothing =>
        obtain ⟨table, keys, name, rfl, hname⟩ := plan_eq_nothing_iff.mp hplan
        exact .idle hname
      | send st =>
        obtain ⟨b, hb, rfl⟩ := builds_of_plan hplan
        rw [courseOfPlan]
        cases hbind : b.statement.bind with
        | ok bound => exact .sent hb hbind
        | error mismatch =>
          refine .withheld hb fun heven => ?_
          rw [Statement.bind, if_pos heven] at hbind
          cases hbind
  · obtain ⟨sql, rfl⟩ := not_forall_not.mp hoffered
    exact .unsupported

/-- **A request takes one course and no other.** -/
theorem takes_iff {r : Request} {c : Course} : r.Takes c ↔ c = r.course :=
  ⟨course_eq_of_takes, fun h => h ▸ takes_course r⟩

/-! ### What a course shows -/

/-- **The number of rows that the rows of a count statement tell:** the value of the first row, as
an integer that is not negative. -/
inductive Counts : List Record → Except Fault Nat → Prop where
  | number {row : Record} {rows : List Record} {value : Value} {n : Int64}
      (hvalue : countedValue? row = some value) (hn : value.integer? = some n)
      (hpos : 0 ≤ n.toInt) : Counts (row :: rows) (.ok n.toInt.toNat)
  | noRow : Counts [] (.error (.internal "count query returned no rows"))
  | noValue {row : Record} {rows : List Record} (h : row.entries = []) :
      Counts (row :: rows) (.error (.internal "count query returned an empty row"))
  | noCount {row : Record} {rows : List Record} {value : Value}
      (hvalue : countedValue? row = some value)
      (h : ∀ n, value.integer? = some n → n.toInt < 0) :
      Counts (row :: rows)
        (.error (.internal ("count query returned non-count value " ++ value.display)))

theorem entries_eq_nil_of_countedValue? {row : Record} (h : countedValue? row = none) :
    row.entries = [] := by
  unfold countedValue? at h
  rw [Option.or_eq_none_iff, Option.map_eq_none_iff, List.head?_eq_none_iff] at h
  exact h.2

theorem counts_readCount (rows : List Record) : Counts rows (readCount rows) := by
  unfold readCount
  split
  · exact .noRow
  · next row rows =>
    split
    · next hvalue => exact .noValue (entries_eq_nil_of_countedValue? hvalue)
    · next value hvalue =>
      split
      · next n hn =>
        split_ifs with hpos
        · exact .number hvalue hn hpos
        · refine .noCount hvalue fun m hm => ?_
          cases hn.symm.trans hm
          omega
      · next hn =>
        refine .noCount hvalue fun m hm => ?_
        cases hn.symm.trans hm

/-- **A result hands on what has come back:** the same fault, the same rows, or the number that they
tell. -/
inductive Answers : Request → Except Fault (List Record) → Except Fault Reply → Prop where
  | fault {r : Request} {fault : Fault} : Answers r (.error fault) (.error fault)
  | rows {r : Request} {rows : List Record} (h : ∀ scope, r ≠ .count scope) :
      Answers r (.ok rows) (.ok (.rows rows))
  | count {scope : Scope} {rows : List Record} {result : Except Fault Nat}
      (h : Counts rows result) : Answers (.count scope) (.ok rows) (result.map .count)

theorem answers_reply (r : Request) (rows : List Record) : r.Answers (.ok rows) (r.reply rows) := by
  cases r with
  | count scope => exact .count (counts_readCount rows)
  | query | select | updateAll | deleteAll | insertAll | execute => exact .rows (by simp)

theorem answers_bind (r : Request) (answer : Except Fault (List Record)) :
    r.Answers answer (answer.bind r.reply) := by
  cases answer with
  | error fault => exact .fault
  | ok rows => exact answers_reply r rows

end Request

/-! ### One request -/

namespace Course

variable {σ : Type} (logging : Logging) (executor : Executor σ)

/-- **What a course shows** when a state of the executor is the first it meets: the result, the
statements that are sent, the warnings, and the state that is left. -/
def Shows (state : σ) (r : Request) (shown : Report × σ) : Course → Prop
  | .refused fault => shown.1.result = .error fault ∧ shown.1.sent = [] ∧ shown.2 = state
  | .withheld st =>
    r.Answers (.ok []) shown.1.result ∧ shown.1.sent = [] ∧ shown.2 = state ∧
      shown.1.events.filter (·.level = .warn) =
        [.withheld (logging.excerpt st.sql) ⟨st.markerCount, st.bindings.length⟩]
  | .sent bound =>
    r.Answers (executor state bound).1.result shown.1.result ∧ shown.1.sent = [bound] ∧
      shown.2 = (executor state bound).2
  | .idle => shown.1.result = .ok (.rows []) ∧ shown.1.sent = [] ∧ shown.2 = state
  | .unsupported =>
    shown.1.result = .error (.unsupported "raw execute") ∧ shown.1.sent = [] ∧ shown.2 = state

variable {logging executor}

/-- What a course sends, and how it changes the state of the executor. -/
theorem Shows.sent {state : σ} {r : Request} {shown : Report × σ} {c : Course}
    (h : c.Shows logging executor state r shown) :
    shown.1.sent = c.sent?.toList ∧
      shown.2 = c.sent?.toList.foldl (fun state bound => (executor state bound).2) state := by
  cases c with
  | sent bound => exact h.2
  | refused | idle | unsupported => exact h.2
  | withheld => exact ⟨h.2.1, h.2.2.1⟩

end Course

namespace Request

variable {σ : Type} (logging : Logging) (executor : Executor σ)

theorem filter_warn_announcement (r : Request) :
    r.announcement.filter (·.level = .warn) = [] := by
  cases r with
  | insertAll table records keys =>
    rw [announcement]
    split
    · split_ifs <;> rfl
    · rfl
  | query | count | select | updateAll | deleteAll | execute => rfl

/-- A request shows the course that it takes. -/
theorem shows_run {r : Request} {c : Course} (h : r.Takes c) (state : σ) :
    c.Shows logging executor state r (r.run logging executor state) := by
  cases h with
  | refused h =>
    have hplan := (plan_eq_error_iff (by rintro sql rfl; exact not_fails_execute h)).mpr h
    unfold run
    rw [hplan]
    exact ⟨rfl, rfl, rfl⟩
  | withheld h hodd =>
    unfold run dispatch
    rw [plan_of_builds h]
    dsimp only [Statement.bind]
    rw [if_neg hodd]
    refine ⟨answers_reply r [], rfl, rfl, ?_⟩
    rw [List.filter_append, filter_warn_announcement]
    rfl
  | sent h hbind =>
    unfold run dispatch
    rw [plan_of_builds h]
    dsimp only
    rw [hbind]
    exact ⟨answers_bind r _, rfl, rfl⟩
  | @idle table keys name h =>
    have hplan := plan_eq_nothing_iff.mpr ⟨table, keys, name, rfl, h⟩
    unfold run
    rw [hplan]
    exact ⟨rfl, rfl, rfl⟩
  | unsupported => exact ⟨rfl, rfl, rfl⟩

/-! ### Requests in sequence -/

/-- Requests take courses one after the other, each from the state that is left by the one before
it. -/
inductive Courses : σ → List Request → List Course → List Report × σ → Prop where
  | nil {state : σ} : Courses state [] [] ([], state)
  | cons {state next last : σ} {r : Request} {rs : List Request} {c : Course} {cs : List Course}
      {report : Report} {reports : List Report} (htakes : r.Takes c)
      (hshows : c.Shows logging executor state r (report, next))
      (hs : Courses next rs cs (reports, last)) :
      Courses state (r :: rs) (c :: cs) (report :: reports, last)

variable {logging executor}

theorem Courses.sent {state : σ} {rs : List Request} {cs : List Course}
    {shown : List Report × σ} (h : Courses logging executor state rs cs shown) :
    shown.1.flatMap (·.sent) = cs.filterMap Course.sent? ∧
      shown.2 = (cs.filterMap Course.sent?).foldl (fun state bound => (executor state bound).2)
        state := by
  induction h with
  | nil => exact ⟨rfl, rfl⟩
  | @cons state next last r rs c cs report reports _ hshows _ ih =>
    obtain ⟨hsent, hnext⟩ := hshows.sent
    have hcons :
        (c :: cs).filterMap Course.sent? = c.sent?.toList ++ cs.filterMap Course.sent? := by
      rw [List.filterMap_cons]
      cases c.sent? <;> rfl
    dsimp only at hsent hnext ih ⊢
    rw [hcons, List.flatMap_cons, List.foldl_append, hsent, ih.1, ← hnext]
    exact ⟨rfl, ih.2⟩

variable (logging executor)

theorem courses_runAll (state : σ) (requests : List Request) :
    Courses logging executor state requests (requests.map course)
      (runAll logging executor state requests) := by
  induction requests generalizing state with
  | nil => exact .nil
  | cons r rs ih =>
    exact .cons (takes_course r) (shows_run logging executor (takes_course r) state) (ih _)

/-- **Every request takes exactly one of the five courses, and shows it.** Of requests in sequence,
those that are sent reach the executor, in order and once each, and only they change its state. -/
theorem run_takes_course :
    (∀ (state : σ) (r : Request), ∃ c : Course, (∀ d, r.Takes d ↔ d = c) ∧
      c.Shows logging executor state r (r.run logging executor state)) ∧
    ∀ (state : σ) (requests : List Request), ∃ cs : List Course,
      Courses logging executor state requests cs (runAll logging executor state requests) ∧
      (runAll logging executor state requests).1.flatMap (·.sent) = cs.filterMap Course.sent? ∧
      (runAll logging executor state requests).2 =
        (cs.filterMap Course.sent?).foldl (fun state bound => (executor state bound).2) state := by
  constructor
  · intro state r
    exact ⟨r.course, fun d => takes_iff, shows_run logging executor (takes_course r) state⟩
  · intro state requests
    have hcourses := courses_runAll logging executor state requests
    exact ⟨requests.map course, hcourses, hcourses.sent⟩

/-- An executor that finds one row with the count 2, and remembers what it was sent. -/
def recorder : Executor (List Bound) :=
  fun seen bound => (⟨.ok [.ofList [("count", .int 2)]], 0⟩, seen ++ [bound])

/-- A request for each course; between those that are not sent, two that are. -/
def fiveCourses : List Request :=
  [.select (.ofTable "t") ["a", "no name"],
   .count { Scope.ofTable "t" with filter := some (.equals "a" (.int 1)) },
   .count { Scope.ofTable "t" with filter := some (.fragment "a = ?" []) },
   .insertAll "t" [] [],
   .deleteAll (.ofTable "t"),
   .execute "SELECT 1",
   .query { Scope.ofTable "t" with filter := some (.deferred 0 (.error (.pool "none"))) }]

theorem runAll_fiveCourses :
    (runAll .standard recorder [] fiveCourses).1.map (·.result) =
      [.error (.validation "Invalid character ' ' in identifier 'no name'"), .ok (.count 2),
       .error (.internal "count query returned no rows"), .ok (.rows []),
       .ok (.rows [.ofList [("count", .int 2)]]), .error (.unsupported "raw execute"),
       .error (.pool "none")] ∧
    ∃ cs : List Course,
      Courses .standard recorder [] fiveCourses cs (runAll .standard recorder [] fiveCourses) ∧
      cs.filterMap Course.sent? =
        [⟨"SELECT COUNT(*) AS \"count\" FROM \"t\" WHERE \"a\" = :param0", ⟨[.int 1]⟩⟩,
         ⟨"DELETE FROM \"t\" RETURNING \"t\".*", ⟨[]⟩⟩] := by
  refine ⟨by decide +kernel, ?_⟩
  obtain ⟨cs, hcourses, hsent, -⟩ := (run_takes_course .standard recorder).2 [] fiveCourses
  refine ⟨cs, hcourses, ?_⟩
  rw [← hsent]
  decide +kernel

end Request

end Rowset
