import Rowset.Proofs.Planning

/-!
# Statements that are held back

A request on a scope sends at most one statement, and whether it is held back is decided by one
count. `exists_builder_of_plan` follows a planned statement back to the selection of its scope:
sort keys, columns and assignments add no fragment. So the statement has as many markers as values
exactly when the fragments of the restriction have, all of them together.

The count does not look at one fragment at a time. A fragment that lacks a value and another that
has one too many make up for each other, and a value of the second is bound to the marker of the
first.
-/

namespace Rowset

open Sql (markerTotal bindingTotal)

/-- **A statement comes out even when the fragments of the caller do together.** -/
theorem Builder.even_statement_iff (b : Builder) :
    b.statement.Even ↔ markerTotal b.fragments = bindingTotal b.fragments := by
  have hadd := Sql.markerCount_add b.plain_render
  rw [b.fragments_render] at hadd
  show (Sql.statement b.render).markerCount = (Sql.statement b.render).bindings.length ↔ _
  omega

namespace Request

/-- A statement that is planned on a scope has the fragments of the restriction of the scope. -/
theorem exists_builder_of_plan {scope : Scope} {selection : Selection} {st : Statement}
    (hs : scope.selection.result = .ok selection) {request : Request}
    (hscope : request.scope? = some scope) (h : request.plan = .ok (.send st)) :
    ∃ b : Builder, b.statement = st ∧ b.fragments = selection.fragments := by
  obtain ⟨b, hb, rfl⟩ := builds_of_plan h
  obtain ⟨s, hs', hbs⟩ := hb.selection? hscope
  cases hs.symm.trans hs'
  exact ⟨b, rfl, Builder.fragments_of_selection? hbs⟩

/-! ### What is sent -/

section Run
variable {σ : Type} (logging : Logging) (executor : Executor σ) (state : σ)

theorem sent_dispatch_eq_nil (request : Request) (st : Statement) :
    (dispatch logging executor state request st).1.sent = [] ↔ ¬ st.Even := by
  unfold dispatch Statement.bind Statement.Even
  by_cases heven : st.markerCount = st.bindings.length
  · rw [if_pos heven]
    simp [heven]
  · rw [if_neg heven]
    simp [heven]

/-- Nothing is sent for a request when nothing is planned to be, or the plan does not come out
even. -/
theorem sent_run_eq_nil (request : Request) :
    (request.run logging executor state).1.sent = [] ↔
      ∀ st, request.plan = .ok (.send st) → ¬ st.Even := by
  unfold run
  cases hplan : request.plan with
  | error fault => simp
  | ok plan =>
    cases plan with
    | nothing => simp
    | send st =>
      have hsent := sent_dispatch_eq_nil logging executor state request st
      simpa using hsent

/-- **A request on a scope is held back by the sum over its fragments.** Nothing reaches the
executor exactly when no statement is planned, or the fragments of the restriction have, all
together, more or fewer markers than values. -/
theorem sent_eq_nil_iff {request : Request} {scope : Scope} {selection : Selection}
    (hscope : request.scope? = some scope) (hs : scope.selection.result = .ok selection) :
    (request.run logging executor state).1.sent = [] ↔
      (∀ st, request.plan ≠ .ok (.send st)) ∨
        markerTotal selection.fragments ≠ bindingTotal selection.fragments := by
  rw [sent_run_eq_nil]
  constructor
  · intro h
    by_cases hplan : ∃ st, request.plan = .ok (.send st)
    · obtain ⟨st, hst⟩ := hplan
      obtain ⟨b, rfl, hb⟩ := exists_builder_of_plan hs hscope hst
      right
      rw [← hb]
      exact fun htotal => h _ hst (b.even_statement_iff.mpr htotal)
    · left
      exact fun st hst => hplan ⟨st, hst⟩
  · rintro (hnone | htotal) st hst
    · exact absurd hst (hnone st)
    · obtain ⟨b, rfl, hb⟩ := exists_builder_of_plan hs hscope hst
      rw [← hb] at htotal
      exact fun heven => htotal (b.even_statement_iff.mp heven)

end Run

/-- An executor that finds no rows, at once. -/
def idleExecutor : Executor Unit :=
  fun state _ => (⟨.ok [], 0⟩, state)

/-- A fragment that lacks a value beside one that has a value too many. -/
def offsetScope : Scope :=
  { Scope.ofTable "t" with
    filter := some (.all [.fragment "a = ?" [], .fragment "b = 1" [.int 5]]) }

/-- A fragment with a value too many beside one that comes out even. -/
def surplusScope : Scope :=
  { Scope.ofTable "t" with
    filter := some (.any [.fragment "a = ?" [.null], .not (.fragment "b = 1" [.int 5])])
    skip := some 3 }

theorem sent_eq_nil_surplusScope :
    ∃ selection : Selection, surplusScope.selection.result = .ok selection ∧
      markerTotal selection.fragments ≠ bindingTotal selection.fragments ∧
      ((deleteAll surplusScope).run .standard idleExecutor ()).1.sent = [] := by
  have htotal : surplusScope.selection.gives
      (fun s => decide (markerTotal s.fragments ≠ bindingTotal s.fragments)) = true := by
    decide +kernel
  obtain ⟨s, hs, hne⟩ := Filter.Outcome.exists_of_gives htotal
  have hne := of_decide_eq_true hne
  exact ⟨s, hs, hne, (sent_eq_nil_iff .standard idleExecutor () rfl hs).mpr (.inr hne)⟩

/-- Two fragments that do not come out even can be sent, with the value of one in the other. -/
theorem sent_offsetScope :
    (∃ selection : Selection, offsetScope.selection.result = .ok selection ∧
      selection.fragments = [⟨"a = ?", []⟩, ⟨"b = 1", [.int 5]⟩] ∧
      ∀ s ∈ selection.fragments, ¬ s.Even) ∧
    ((query offsetScope).run .standard idleExecutor ()).1.sent =
      [⟨"SELECT * FROM \"t\" WHERE (a = :param0) AND (b = 1)", ⟨[.int 5]⟩⟩] := by
  refine ⟨?_, by decide +kernel⟩
  have hfragments : offsetScope.selection.gives
      (fun s => decide (s.fragments = [⟨"a = ?", []⟩, ⟨"b = 1", [.int 5]⟩])) = true := by
    decide +kernel
  obtain ⟨s, hs, heq⟩ := Filter.Outcome.exists_of_gives hfragments
  have heq := of_decide_eq_true heq
  refine ⟨s, hs, heq, ?_⟩
  rw [heq]
  decide +kernel

end Request

end Rowset
