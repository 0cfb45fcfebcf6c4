import Rowset.Proofs.Derivation
import Mathlib.Data.List.Basic

/-!
# What a compilation resolves, and when

The steps of a compilation are listed without compiling anything (`Filter.steps`): depth first and
left to right, a column is read as a name or a deferred filter is resolved, and the steps of what it
is resolved to come right behind. A disjunction has the steps of its branches up to the first one
that restricts nothing.

* `Outcome.Follows`: an outcome follows some steps when it takes them in order up to the first that
  fails, so that it has resolved what these steps resolve and fails with that fault or not at all.
  Sequences of outcomes follow their steps one after the other (`Follows.bind`), and a compilation
  follows the steps of its filter (`follows_conjuncts`).
* `Filter.settled` puts what was found in the place of each deferred filter that is reached.
  Compiling this takes the same steps but for the resolutions (`trims_settled`) and has the
  same result (`result_settled`).
-/

namespace Rowset.Filter

/-! ### Steps -/

/-- A step of a compilation. -/
inductive Step where
  /-- A column is read as a name. -/
  | read (column : String)
  /-- A deferred filter is resolved, which can fail. -/
  | resolve (ticket : Nat) (failure : Option Fault)
  deriving DecidableEq

namespace Step

/-- The fault of a step that fails. -/
def fault? : Step → Option Fault
  | .read column =>
    match Name.parse column with
    | .ok _ => none
    | .error fault => some fault
  | .resolve _ failure => failure

/-- The ticket of the deferred filter that a step resolves. -/
def ticket? : Step → Option Nat
  | .read _ => none
  | .resolve ticket _ => some ticket

/-- Holds of the steps that find out a deferred filter. -/
def isFound : Step → Bool
  | .resolve _ none => true
  | _ => false

theorem fault?_of_isFound {step : Step} (h : step.isFound = true) : step.fault? = none := by
  cases step with
  | read column => cases h
  | resolve ticket failure =>
    cases failure with
    | none => rfl
    | some fault => cases h

end Step

/-- **The steps that are taken:** all those before the first that fails, and this one. -/
def taken : List Step → List Step
  | [] => []
  | step :: steps => if step.fault?.isSome then [step] else step :: taken steps

/-- The first fault among some steps. -/
def firstFault? (steps : List Step) : Option Fault :=
  steps.findSome? Step.fault?

theorem firstFault?_cons (step : Step) (steps : List Step) :
    firstFault? (step :: steps) = step.fault?.or (firstFault? steps) := by
  unfold firstFault?
  rw [List.findSome?_cons]
  cases step.fault? <;> rfl

theorem firstFault?_append {steps : List Step} (h : firstFault? steps = none) (more : List Step) :
    firstFault? (steps ++ more) = firstFault? more := by
  unfold firstFault? at h ⊢
  rw [List.findSome?_append, h]
  rfl

theorem taken_append {steps : List Step} (h : firstFault? steps = none) (more : List Step) :
    taken (steps ++ more) = steps ++ taken more := by
  induction steps with
  | nil => rfl
  | cons step steps ih =>
    rw [firstFault?_cons, Option.or_eq_none_iff] at h
    rw [List.cons_append, taken, h.1, ih h.2]
    rfl

theorem taken_eq_self {steps : List Step} (h : firstFault? steps = none) : taken steps = steps := by
  have happend := taken_append h []
  rwa [List.append_nil, taken, List.append_nil] at happend

/-- Nothing is taken behind a step that fails. -/
theorem append_of_firstFault? {steps : List Step} {fault : Fault}
    (h : firstFault? steps = some fault) (more : List Step) :
    taken (steps ++ more) = taken steps ∧ firstFault? (steps ++ more) = some fault := by
  induction steps with
  | nil => cases h
  | cons step steps ih =>
    rw [List.cons_append, taken, taken, firstFault?_cons]
    rw [firstFault?_cons] at h
    cases hstep : step.fault? with
    | some own =>
      rw [hstep] at h
      exact ⟨rfl, h⟩
    | none =>
      rw [hstep, Option.none_or] at h
      obtain ⟨htaken, hfault⟩ := ih h
      exact ⟨by rw [htaken], hfault⟩

theorem taken_sublist (steps : List Step) : (taken steps).Sublist steps := by
  induction steps with
  | nil => exact List.Sublist.refl _
  | cons step steps ih =>
    rw [taken]
    split_ifs
    · exact (List.nil_sublist steps).cons_cons step
    · exact ih.cons_cons step

theorem firstFault?_taken (steps : List Step) : firstFault? (taken steps) = firstFault? steps := by
  induction steps with
  | nil => rfl
  | cons step steps ih =>
    rw [taken]
    cases hstep : step.fault? with
    | some fault => simp [firstFault?_cons, hstep]
    | none => simp [firstFault?_cons, hstep, ih]

/-! ### The steps of a filter -/

mutual

/-- **The steps in which a filter is compiled,** as far as none of them fails: depth first and left
to right. -/
def steps : Filter → List Step
  | .properties record => record.columns.map .read
  | .all members => memberSteps members
  | .any members => branchSteps members
  | .not inner => inner.steps
  | .oneOf column _ => [.read column]
  | .noneOf column _ => [.read column]
  | .missing column => [.read column]
  | .present column => [.read column]
  | .between column _ _ => [.read column]
  | .outside column _ _ => [.read column]
  | .bounded _ column _ => [.read column]
  | .fragment .. => []
  | .deferred ticket (.ok f) => .resolve ticket none :: f.steps
  | .deferred ticket (.error fault) => [.resolve ticket (some fault)]

/-- The steps of the members of a conjunction. -/
def memberSteps : List Filter → List Step
  | [] => []
  | member :: members => member.steps ++ memberSteps members

/-- The steps of the branches of a disjunction. A branch that restricts nothing is the last one that
is looked at. -/
def branchSteps : List Filter → List Step
  | [] => []
  | member :: members => member.steps ++ if member.isTrivial then [] else branchSteps members

end

/-! ### Outcomes that follow steps -/

namespace Outcome

variable {α β : Type}

/-- **An outcome follows some steps:** the steps that are taken have resolved what it has resolved,
in this order, and it fails with the fault of the first one that fails, or succeeds. -/
structure Follows (o : Outcome α) (steps : List Step) : Prop where
  resolved : o.resolved = (taken steps).filterMap Step.ticket?
  fails : ∀ fault, o.result = .error fault ↔ firstFault? steps = some fault

namespace Follows

theorem firstFault?_eq_none {o : Outcome α} {steps : List Step} (h : o.Follows steps) {a : α}
    (hok : o.result = .ok a) : firstFault? steps = none := by
  cases hfault : firstFault? steps with
  | none => rfl
  | some fault =>
    have herror := (h.fails fault).mpr hfault
    rw [hok] at herror
    cases herror

theorem pure (a : α) : (Pure.pure a : Outcome α).Follows [] :=
  ⟨rfl, fun fault => ⟨fun h => (by cases h), fun h => (by cases h)⟩⟩

/-- **Two outcomes in sequence follow the steps of both.** -/
theorem bind {o : Outcome α} {next : α → Outcome β} {steps more : List Step} (h : o.Follows steps)
    (hnext : ∀ a, o.result = .ok a → (next a).Follows more) :
    (o >>= next).Follows (steps ++ more) := by
  cases hr : o.result with
  | error fault =>
    have hfault := (h.fails fault).mp hr
    obtain ⟨htaken, hfirst⟩ := append_of_firstFault? hfault more
    refine ⟨?_, fun other => ?_⟩
    · rw [resolved_bind_of_error hr, h.resolved, htaken]
    · rw [result_bind, hr, hfirst]
      show Except.error fault = Except.error other ↔ some fault = some other
      simp
  | ok a =>
    have hnone := h.firstFault?_eq_none hr
    have hmore := hnext a hr
    refine ⟨?_, fun fault => ?_⟩
    · rw [resolved_bind_of_ok hr, h.resolved, hmore.resolved, taken_append hnone,
        taken_eq_self hnone, List.filterMap_append]
    · rw [result_bind, hr, firstFault?_append hnone, ← hmore.fails fault]
      rfl

/-- What is only put together at the end takes no step. -/
theorem finish {o : Outcome α} {next : α → Outcome β} {steps : List Step} (h : o.Follows steps)
    (hnext : ∀ a, (next a).Follows []) : (o >>= next).Follows steps := by
  have hbind := h.bind fun a _ => hnext a
  rwa [List.append_nil] at hbind

theorem after {o : Outcome α} {steps : List Step} (h : o.Follows steps) (ticket : Nat) :
    (o.after ticket).Follows (.resolve ticket none :: steps) := by
  refine ⟨?_, fun fault => h.fails fault⟩
  show ticket :: o.resolved = _
  rw [h.resolved]
  rfl

end Follows

end Outcome

open Outcome (Follows)

/-! ### A compilation follows the steps of its filter -/

theorem parseAll_eq_error_iff (texts : List String) (fault : Fault) :
    Name.parseAll texts = .error fault ↔ firstFault? (texts.map .read) = some fault := by
  induction texts with
  | nil =>
    constructor
    · intro h
      cases h
    · intro h
      cases h
  | cons text texts ih =>
    rw [Name.parseAll_cons_eq, List.map_cons]
    cases hp : Name.parse text with
    | error own =>
      show Except.error own = Except.error fault ↔ _
      simp [firstFault?, Step.fault?, hp]
    | ok name =>
      have hrest : firstFault? (.read text :: texts.map .read) = firstFault? (texts.map .read) := by
        simp [firstFault?, Step.fault?, hp]
      rw [hrest, ← ih]
      cases Name.parseAll texts with
      | error other => exact Iff.rfl
      | ok names =>
        constructor
        · intro h
          cases h
        · intro h
          cases h

theorem filterMap_ticket?_read (texts : List String) :
    (taken (texts.map .read)).filterMap Step.ticket? = [] := by
  induction texts with
  | nil => rfl
  | cons text texts ih =>
    rw [List.map_cons, taken]
    split_ifs
    · rfl
    · exact ih

theorem follows_equalities (record : Record) :
    (Outcome.ofExcept (equalities record)).Follows (record.columns.map .read) := by
  refine ⟨(filterMap_ticket?_read record.columns).symm, fun fault => ?_⟩
  show equalities record = .error fault ↔ _
  rw [← parseAll_eq_error_iff, equalities_eq, bind_eq_error]
  constructor
  · rintro (h | ⟨names, -, h⟩)
    · exact h
    · cases h
  · exact Or.inl

theorem follows_onColumn (column : String) (test : Name → Condition) :
    (onColumn column test).Follows [.read column] := by
  refine ⟨(filterMap_ticket?_read [column]).symm, fun fault => ?_⟩
  show (Name.parse column).map _ = .error fault ↔ _
  cases hp : Name.parse column with
  | error own =>
    show Except.error own = Except.error fault ↔ _
    simp [firstFault?, Step.fault?, hp]
  | ok name =>
    constructor
    · intro h
      cases h
    · intro h
      simp [firstFault?, Step.fault?, hp] at h

/-- Whether a branch restricts anything is seen from the branch alone, once it has been compiled. -/
theorem collapse_eq_none_iff_isTrivial {f : Filter} {ds : List Condition}
    (h : f.conjuncts.result = .ok ds) : collapse ds = none ↔ f.isTrivial = true := by
  have hadds := adds_of_result f ds h
  exact (collapse_eq_none_iff hadds.live).trans hadds.eq_nil_iff

mutual

/-- **A compilation follows the steps of its filter.** -/
theorem follows_conjuncts : ∀ f : Filter, f.conjuncts.Follows f.steps
  | .properties record => by
    rw [conjuncts, steps]
    exact follows_equalities record
  | .all members => by
    rw [conjuncts, steps]
    exact follows_memberConditions members
  | .any members => by
    rw [conjuncts, steps]
    refine (follows_branches members).finish fun parts => ?_
    rcases parts with _ | _ | ⟨c, cs⟩
    · exact .pure _
    · exact .pure _
    · exact .pure _
  | .not inner => by
    rw [conjuncts, steps]
    refine (follows_conjuncts inner).finish fun ds => ?_
    cases collapse ds with
    | none => exact .pure _
    | some c => exact .pure _
  | .oneOf .. | .noneOf .. | .missing _ | .present _ | .between .. | .outside .. | .bounded .. => by
    rw [conjuncts, steps]
    exact follows_onColumn _ _
  | .fragment .. => by
    rw [conjuncts, steps]
    exact .pure _
  | .deferred ticket (.ok f) => by
    rw [conjuncts, steps]
    exact (follows_conjuncts f).after ticket
  | .deferred ticket (.error fault) => by
    rw [conjuncts, steps]
    refine ⟨rfl, fun other => ?_⟩
    show Except.error fault = Except.error other ↔ some fault = some other
    simp

theorem follows_memberConditions :
    ∀ members : List Filter, (memberConditions members).Follows (memberSteps members)
  | [] => by
    rw [memberConditions, memberSteps]
    exact .pure _
  | member :: members => by
    rw [memberConditions, memberSteps]
    refine (follows_conjuncts member).bind fun ds _ => ?_
    exact (follows_memberConditions members).finish fun cs => .pure _

theorem follows_branches :
    ∀ members : List Filter, (branches members).Follows (branchSteps members)
  | [] => by
    rw [branches, branchSteps]
    exact .pure _
  | member :: members => by
    rw [branches, branchSteps]
    refine (follows_conjuncts member).bind fun ds hds => ?_
    have hopen := collapse_eq_none_iff_isTrivial hds
    cases hc : collapse ds with
    | none =>
      rw [hopen.mp hc]
      exact .pure _
    | some c =>
      have hshut : member.isTrivial = false := by
        rw [hc] at hopen
        simpa using hopen
      rw [hshut]
      exact (follows_branches members).finish fun cs => .pure _

end

/-! ### Filters with what was found in the place of what was deferred -/

mutual

/-- **A filter in which each deferred filter that is reached is replaced** by what it is resolved
to. What is not reached stays as it is, and so does a deferred filter that is not found out. -/
def settled : Filter → Filter
  | .all members => .all (settledMembers members)
  | .any members => .any (settledBranches members)
  | .not inner => .not inner.settled
  | .deferred _ (.ok f) => f.settled
  | f => f

/-- Settles the members of a conjunction, up to the first that fails. -/
def settledMembers : List Filter → List Filter
  | [] => []
  | member :: members =>
    member.settled ::
      if (firstFault? member.steps).isNone then settledMembers members else members

/-- Settles the branches of a disjunction, up to the first that fails or restricts nothing. -/
def settledBranches : List Filter → List Filter
  | [] => []
  | member :: members =>
    member.settled ::
      if (firstFault? member.steps).isNone && !member.isTrivial then settledBranches members
      else members

end

mutual

theorem isTrivial_settled : ∀ f : Filter, f.settled.isTrivial = f.isTrivial
  | .all members => by
    rw [settled, isTrivial, isTrivial, areTrivial_settledMembers members]
  | .any members => by
    rw [settled, isTrivial, isTrivial, hasTrivial_settledBranches members]
    cases members <;> rfl
  | .not inner => by simp [settled, isTrivial]
  | .deferred ticket (.ok f) => by
    rw [settled, isTrivial, isTrivial_settled f]
  | .deferred _ (.error _) | .properties _ | .oneOf .. | .noneOf .. | .missing _ | .present _
  | .between .. | .outside .. | .bounded .. | .fragment .. => by simp [settled]

theorem areTrivial_settledMembers :
    ∀ members : List Filter, areTrivial (settledMembers members) = areTrivial members
  | [] => rfl
  | member :: members => by
    rw [settledMembers, areTrivial, areTrivial, isTrivial_settled member]
    split_ifs
    · rw [areTrivial_settledMembers members]
    · rfl

theorem hasTrivial_settledBranches :
    ∀ members : List Filter, hasTrivial (settledBranches members) = hasTrivial members
  | [] => rfl
  | member :: members => by
    rw [settledBranches, hasTrivial, hasTrivial, isTrivial_settled member]
    split_ifs
    · rw [hasTrivial_settledBranches members]
    · rfl

end

/-- Some steps are left of others when the resolutions that succeed are left out. -/
def Trims (left steps : List Step) : Prop :=
  taken left = (taken steps).filter fun step => !step.isFound

namespace Trims

theorem firstFault?_filter (steps : List Step) :
    firstFault? (steps.filter fun step => !step.isFound) = firstFault? steps := by
  induction steps with
  | nil => rfl
  | cons step steps ih =>
    cases hfound : step.isFound with
    | true => simp [hfound, firstFault?_cons, Step.fault?_of_isFound hfound, ih]
    | false => simp [hfound, firstFault?_cons, ih]

/-- The steps that are left fail in the same way. -/
theorem firstFault?_eq {left steps : List Step} (h : Trims left steps) :
    firstFault? left = firstFault? steps := by
  rw [← firstFault?_taken, h, firstFault?_filter, firstFault?_taken]

theorem append {left steps left' more : List Step} (h : Trims left steps)
    (hmore : firstFault? steps = none → Trims left' more) :
    Trims (left ++ left') (steps ++ more) := by
  have hfault := h.firstFault?_eq
  unfold Trims at h ⊢
  cases hs : firstFault? steps with
  | none =>
    rw [hs] at hfault
    have hmore := hmore hs
    unfold Trims at hmore
    rw [taken_eq_self hs, taken_eq_self hfault] at h
    rw [taken_append hfault, taken_append hs, List.filter_append, h, hmore]
  | some fault =>
    rw [hs] at hfault
    rw [(append_of_firstFault? hfault left').1, (append_of_firstFault? hs more).1, h]

theorem of_forall {steps : List Step} (h : ∀ step ∈ steps, step.isFound = false) :
    Trims steps steps := by
  have hkeep : ∀ step ∈ taken steps, (!step.isFound) = true := by
    intro step hstep
    rw [h step ((taken_sublist steps).subset hstep)]
    rfl
  exact (List.filter_eq_self.mpr hkeep).symm

theorem read (texts : List String) : Trims (texts.map .read) (texts.map .read) := by
  refine of_forall fun step hstep => ?_
  obtain ⟨text, -, rfl⟩ := List.mem_map.mp hstep
  rfl

end Trims

mutual

/-- **A settled filter is compiled in the same steps,** but for the resolutions that succeed. -/
theorem trims_settled : ∀ f : Filter, Trims f.settled.steps f.steps
  | .properties record => by
    simp only [settled, steps]
    exact .read record.columns
  | .all members => by
    simp only [settled, steps]
    exact trims_settledMembers members
  | .any members => by
    simp only [settled, steps]
    exact trims_settledBranches members
  | .not inner => by
    simp only [settled, steps]
    exact trims_settled inner
  | .deferred ticket (.ok f) => by
    have ih := trims_settled f
    unfold Trims at ih ⊢
    rw [settled, steps, ih]
    rfl
  | .deferred ticket (.error fault) => by
    simp only [settled, steps]
    exact .of_forall (by simp [Step.isFound])
  | .fragment .. => by
    simp only [settled, steps]
    exact .of_forall (by simp)
  | .oneOf column _ | .noneOf column _ | .missing column | .present column | .between column _ _
  | .outside column _ _ | .bounded _ column _ => by
    simp only [settled, steps]
    exact .read [column]

theorem trims_settledMembers :
    ∀ members : List Filter, Trims (memberSteps (settledMembers members)) (memberSteps members)
  | [] => rfl
  | member :: members => by
    rw [settledMembers, memberSteps, memberSteps]
    refine (trims_settled member).append fun hnone => ?_
    rw [hnone, Option.isNone_none, if_pos rfl]
    exact trims_settledMembers members

theorem trims_settledBranches :
    ∀ members : List Filter, Trims (branchSteps (settledBranches members)) (branchSteps members)
  | [] => rfl
  | member :: members => by
    rw [settledBranches, branchSteps, branchSteps, isTrivial_settled member]
    refine (trims_settled member).append fun hnone => ?_
    rw [hnone]
    cases member.isTrivial with
    | true => exact rfl
    | false => exact trims_settledBranches members

end

mutual

/-- **A settled filter is compiled to the same conditions,** or fails with the same fault. -/
theorem result_settled : ∀ f : Filter, f.settled.conjuncts.result = f.conjuncts.result
  | .all members => by
    rw [settled, conjuncts, conjuncts]
    exact result_settledMembers members
  | .any members => by
    rw [settled, conjuncts, conjuncts, Outcome.result_bind, Outcome.result_bind,
      result_settledBranches members]
  | .not inner => by
    rw [settled, conjuncts, conjuncts, Outcome.result_bind, Outcome.result_bind,
      result_settled inner]
  | .deferred ticket (.ok f) => by
    rw [settled, conjuncts]
    exact result_settled f
  | .deferred _ (.error _) | .properties _ | .oneOf .. | .noneOf .. | .missing _ | .present _
  | .between .. | .outside .. | .bounded .. | .fragment .. => by simp only [settled]

theorem result_settledMembers : ∀ members : List Filter,
    (memberConditions (settledMembers members)).result = (memberConditions members).result
  | [] => rfl
  | member :: members => by
    rw [settledMembers, memberConditions, memberConditions, Outcome.result_bind,
      Outcome.result_bind, result_settled member]
    cases hr : member.conjuncts.result with
    | error fault => rfl
    | ok ds =>
      -- The member has not failed, so the ones behind it are settled as well.
      have hnone := (follows_conjuncts member).firstFault?_eq_none hr
      rw [hnone, Option.isNone_none, if_pos rfl]
      show (memberConditions _ >>= _).result = (memberConditions _ >>= _).result
      rw [Outcome.result_bind, Outcome.result_bind, result_settledMembers members]

theorem result_settledBranches : ∀ members : List Filter,
    (branches (settledBranches members)).result = (branches members).result
  | [] => rfl
  | member :: members => by
    rw [settledBranches, branches, branches, Outcome.result_bind, Outcome.result_bind,
      result_settled member]
    cases hr : member.conjuncts.result with
    | error fault => rfl
    | ok ds =>
      have hnone := (follows_conjuncts member).firstFault?_eq_none hr
      have hopen := collapse_eq_none_iff_isTrivial hr
      show Outcome.result (match collapse ds with | some c => _ | none => _) =
        Outcome.result (match collapse ds with | some c => _ | none => _)
      cases hc : collapse ds with
      | none => rfl
      | some c =>
        have hshut : member.isTrivial = false := by
          rw [hc] at hopen
          simpa using hopen
        rw [hnone, hshut, Option.isNone_none, Bool.not_false, Bool.and_self, if_pos rfl]
        show (branches _ >>= _).result = (branches _ >>= _).result
        rw [Outcome.result_bind, Outcome.result_bind, result_settledBranches members]

end

/-! ### Compilation -/

/-- The branches behind one that restricts nothing are not looked at. -/
theorem branches_of_isTrivial {member : Filter} (h : member.isTrivial = true)
    (before behind : List Filter) :
    branches (before ++ member :: behind) = branches (before ++ [member]) := by
  induction before with
  | nil =>
    rw [List.nil_append, List.nil_append, branches, branches]
    refine Outcome.bind_congr fun ds hds => ?_
    rw [(collapse_eq_none_iff_isTrivial hds).mpr h]
  | cons first before ih => rw [List.cons_append, List.cons_append, branches, branches, ih]

theorem compile_any_of_isTrivial {member : Filter} (h : member.isTrivial = true)
    (before behind : List Filter) :
    (Filter.any (before ++ member :: behind)).compile =
      (Filter.any (before ++ [member])).compile := by
  unfold compile
  rw [conjuncts, conjuncts, branches_of_isTrivial h]

theorem follows_compile (f : Filter) : f.compile.Follows f.steps :=
  (follows_conjuncts f).finish fun _ => .pure _

theorem follows_applyFilter (s : Selection) (f : Filter) : (s.applyFilter f).Follows f.steps :=
  (follows_conjuncts f).finish fun _ => .pure _

theorem result_compile_settled (f : Filter) : f.settled.compile.result = f.compile.result := by
  unfold compile
  rw [Outcome.result_bind, Outcome.result_bind, result_settled]

theorem result_applyFilter_settled (s : Selection) (f : Filter) :
    (s.applyFilter f.settled).result = (s.applyFilter f).result := by
  unfold Selection.applyFilter
  rw [Outcome.result_bind, Outcome.result_bind, result_settled]

/-- Where every resolution that is reached succeeds, a settled filter has none left. -/
theorem resolved_settled {f : Filter}
    (h : ∀ ticket fault, Step.resolve ticket (some fault) ∉ taken f.steps) :
    (taken f.settled.steps).filterMap Step.ticket? = [] := by
  rw [trims_settled f, List.filterMap_eq_nil_iff]
  intro step hstep
  obtain ⟨hmem, hfound⟩ := List.mem_filter.mp hstep
  cases step with
  | read column => rfl
  | resolve ticket failure =>
    cases failure with
    | none => cases hfound
    | some fault => exact absurd hmem (h ticket fault)

/-- **Deferred filters are resolved in order, once, and only where a compilation gets to them.**
They could as well have been found out before. -/
theorem compile_follows (f : Filter) :
    (f.compile.Follows f.steps ∧ ∀ s : Selection, (s.applyFilter f).Follows f.steps) ∧
      (∀ before member behind, f = .any (before ++ member :: behind) →
        member.isTrivial = true → f.compile = (Filter.any (before ++ [member])).compile) ∧
      (f.settled.compile.result = f.compile.result ∧
        ∀ s : Selection, (s.applyFilter f.settled).result = (s.applyFilter f).result) ∧
      ((∀ ticket fault, Step.resolve ticket (some fault) ∉ taken f.steps) →
        f.settled.compile.resolved = [] ∧
          ∀ s : Selection, (s.applyFilter f.settled).resolved = []) := by
  refine ⟨⟨follows_compile f, fun s => follows_applyFilter s f⟩, ?_,
    ⟨result_compile_settled f, fun s => result_applyFilter_settled s f⟩, fun h => ?_⟩
  · rintro before member behind rfl hopen
    exact compile_any_of_isTrivial hopen before behind
  · have hnone := resolved_settled h
    refine ⟨?_, fun s => ?_⟩
    · rw [(follows_compile f.settled).resolved, hnone]
    · rw [(follows_applyFilter s f.settled).resolved, hnone]

/-- A branch that restricts nothing, found out in two steps, between one with a deferred filter
inside and one that fails. -/
def lateFilter : Filter :=
  .any [.deferred 1 (.ok (.not (.deferred 2 (.ok (.missing "a"))))),
    .deferred 3 (.ok (.all [.deferred 4 (.ok (.any []))])),
    .deferred 5 (.error (.executor "gone"))]

theorem compile_follows_lateFilter :
    lateFilter.compile.resolved = [1, 2, 3, 4] ∧
      lateFilter.compile = (Filter.any [.deferred 1 (.ok (.not (.deferred 2 (.ok (.missing "a"))))),
        .deferred 3 (.ok (.all [.deferred 4 (.ok (.any []))]))]).compile ∧
      lateFilter.settled.compile.resolved = [] ∧
      lateFilter.settled.compile.result = lateFilter.compile.result ∧
      (Filter.all [lateFilter, .missing "no name", .deferred 6 (.ok lateFilter)]).compile.resolved =
        [1, 2, 3, 4] := by
  obtain ⟨⟨hfollows, -⟩, hopen, ⟨hresult, -⟩, hsettled⟩ := compile_follows lateFilter
  have htaken : taken lateFilter.steps =
      [.resolve 1 none, .resolve 2 none, .read "a", .resolve 3 none, .resolve 4 none] := by
    decide +kernel
  have hfound : ∀ ticket fault, Step.resolve ticket (some fault) ∉ taken lateFilter.steps := by
    rw [htaken]
    simp
  refine ⟨?_, hopen [_] _ [_] rfl rfl, (hsettled hfound).1, hresult, ?_⟩
  · rw [hfollows.resolved, htaken]
    rfl
  · rw [(compile_follows _).1.1.resolved]
    decide +kernel

end Rowset.Filter
