import Rowset.Proofs.Building
import Rowset.Proofs.Folding

/-!
# Conjunctions that can be reached

A conjunction is made from nothing by taking in conditions, one after the other: directly, as the
restriction of a selection, or by folding a filter into it. None of these ways takes in an empty
condition, so every conjunction that can be reached is `Conjunction.Normal`
(`Conjunction.Reachable.normal`). The induction is over the steps that lead to conjunctions and to
selections, since a restriction can be taken from a selection and put into another one.

A normal conjunction is without content only if it has no members, and then it comes to no
condition. If it comes to one, then this is written in the same way as the conjunction: one member
stands alone without parentheses, and of several members it is the group
(`Conjunction.Normal.render_of_condition?`). Whatever a filter is compiled to and a scope selects is
covered (`Filter.exists_reachable_of_compile`, `Scope.reachable_of_selection`).
-/

namespace Rowset

mutual

/-- **The conjunctions that can be reached.** -/
inductive Conjunction.Reachable : Conjunction → Prop
  | empty : Conjunction.Reachable .empty
  | and {g : Conjunction} (h : g.Reachable) (c : Condition) : Conjunction.Reachable (g.and c)
  /-- A filter is folded into the conjunction. -/
  | folded {g g' : Conjunction} (h : g.Reachable) {f : Filter}
      (hf : (f.foldInto g).result = .ok g') : Conjunction.Reachable g'
  /-- The restriction of a selection is taken from it. -/
  | taken {s : Selection} (h : s.Reachable) : Conjunction.Reachable s.restriction

/-- **The selections that can be reached.** -/
inductive Selection.Reachable : Selection → Prop
  | ofTable (table : Name) : Selection.Reachable (.ofTable table)
  | restrict {s : Selection} (h : s.Reachable) (c : Condition) : Selection.Reachable (s.restrict c)
  /-- The restriction is replaced, by nothing or by another conjunction. -/
  | replaced {s : Selection} (h : s.Reachable) {g : Conjunction} (hg : g.Reachable) :
      Selection.Reachable { s with restriction := g }
  | limited {s : Selection} (h : s.Reachable) (limit offset : Option Nat) :
      Selection.Reachable { s with limit := limit, offset := offset }
  | filtered {s t : Selection} (h : s.Reachable) {f : Filter}
      (hf : (s.applyFilter f).result = .ok t) : Selection.Reachable t

end

namespace Conjunction

/-- Holds of the conjunctions without empty members. -/
def Normal (g : Conjunction) : Prop :=
  ∀ c ∈ g.members, c.isEmpty = false

/-! ### What the steps preserve -/

namespace Normal

variable {g : Conjunction}

theorem and (h : g.Normal) (c : Condition) : (g.and c).Normal := by
  unfold Conjunction.and
  split_ifs with hempty
  · exact h
  · intro d hd
    rcases List.mem_append.mp hd with hd | hd
    · exact h d hd
    · rw [List.mem_singleton.mp hd]
      exact Bool.eq_false_iff.mpr hempty

theorem foldl_and (cs : List Condition) (h : g.Normal) : (cs.foldl Conjunction.and g).Normal := by
  induction cs generalizing g with
  | nil => exact h
  | cons c cs ih => exact ih (h.and c)

theorem foldInto (h : g.Normal) {f : Filter} {g' : Conjunction}
    (hf : (f.foldInto g).result = .ok g') : g'.Normal := by
  rw [Filter.foldInto_eq] at hf
  obtain ⟨cs, -, hf⟩ := Filter.Outcome.result_bind_eq_ok.mp hf
  cases hf
  exact h.foldl_and cs

theorem applyFilter {s t : Selection} (h : s.restriction.Normal) {f : Filter}
    (hf : (s.applyFilter f).result = .ok t) : t.restriction.Normal := by
  rw [Selection.applyFilter_eq_foldInto] at hf
  obtain ⟨g, hg, hf⟩ := Filter.Outcome.result_bind_eq_ok.mp hf
  cases hf
  exact h.foldInto hg

end Normal

theorem normal_empty : empty.Normal := fun _ hc => absurd hc List.not_mem_nil

mutual

/-- **No empty condition is taken in** on the way to a conjunction. -/
theorem Reachable.normal : ∀ {g : Conjunction}, g.Reachable → g.Normal
  | _, .empty => normal_empty
  | _, .and h c => h.normal.and c
  | _, .folded h hf => h.normal.foldInto hf
  | _, .taken h => normal_of_selection h

theorem normal_of_selection : ∀ {s : Selection}, s.Reachable → s.restriction.Normal
  | _, .ofTable _ => normal_empty
  | _, .restrict h c => (normal_of_selection h).and c
  | _, .replaced _ hg => hg.normal
  | _, .limited h _ _ => by
    have hs := normal_of_selection h
    exact hs
  | _, .filtered h hf => (normal_of_selection h).applyFilter hf

end

/-! ### What a conjunction comes to -/

theorem condition?_eq_none_iff {g : Conjunction} : g.condition? = none ↔ g.members = [] := by
  unfold condition?
  split
  · next h => simp [h]
  · next h => simp [h]
  · next hnil _ => exact iff_of_false (by simp) hnil

namespace Normal

variable {g : Conjunction}

theorem isEmpty_iff (h : g.Normal) : g.isEmpty = true ↔ g.members = [] := by
  unfold Normal at h
  unfold isEmpty
  cases hmembers : g.members with
  | nil => exact iff_of_true rfl rfl
  | cons c cs =>
    rw [hmembers] at h
    rw [Condition.areEmpty, h c List.mem_cons_self]
    simp

/-- **A conjunction is written as the condition that it comes to.** -/
theorem render_of_condition? (h : g.Normal) {c : Condition} (hc : g.condition? = some c) :
    c.render = g.render := by
  have hcollapse : Filter.collapse g.members = some c := by
    rw [Filter.collapse, Filter.ofList_of_live h]
    exact hc
  exact (Condition.render_of_collapse h hcollapse).symm

end Normal

/-- **Conjunctions that can be reached are normal, and nothing is lost when they are collapsed.** No
member is empty, so a conjunction is empty exactly when it has no members, which is when it comes to
no condition. The condition that it comes to is built as the conjunction is: with the same text, and
with the same values behind those that were there. -/
theorem Reachable.collapses {g : Conjunction} (h : g.Reachable) :
    (∀ c ∈ g.members, c.isEmpty = false) ∧ (g.isEmpty = true ↔ g.members = []) ∧
      (g.members = [] ↔ g.condition? = none) ∧
      ∀ c, g.condition? = some c →
        ∃ sql values, Collect.Writes c.build sql values ∧ Collect.Writes g.build sql values := by
  refine ⟨h.normal, h.normal.isEmpty_iff, condition?_eq_none_iff.symm, fun c hc => ?_⟩
  have hcondition := c.writes_build
  rw [h.normal.render_of_condition? hc] at hcondition
  exact ⟨_, _, hcondition, g.writes_build⟩

/-- Two groups without content and a fragment, which is left alone. -/
def loneFragment : Conjunction :=
  ((empty.and (.any [.not (.all [])])).and (.fragment "a = ? OR b" [.int 1])).and (.all [.any []])

theorem reachable_loneFragment : loneFragment.Reachable :=
  ((Reachable.empty.and _).and _).and _

/-- The fragment is not set in parentheses as long as it is alone. A filter is folded into the
conjunction, and the condition that this comes to is built behind a value that is there already. -/
theorem collapses_loneFragment :
    (loneFragment.condition? = some (.fragment "a = ? OR b" [.int 1]) ∧
      loneFragment.build.run [] = ("a = ? OR b", [.int 1])) ∧
    ∃ g c, (Selection.recentFilter.foldInto loneFragment).result = .ok g ∧
      g.condition? = some c ∧ (∀ d ∈ g.members, d.isEmpty = false) ∧
      c.build.run [.null] =
        ("(a = ? OR b) AND (\"a\" IS NOT NULL AND \"b\" > ?) AND \"c\" IN (?, ?)",
          [.null, .int 1, .int 1, .int 2, .int 3]) := by
  have hgiven : (Selection.recentFilter.foldInto loneFragment).gives (fun g =>
      g.condition?.isSome && g.build.run [.null] =
        ("(a = ? OR b) AND (\"a\" IS NOT NULL AND \"b\" > ?) AND \"c\" IN (?, ?)",
          [.null, .int 1, .int 1, .int 2, .int 3])) = true := by decide +kernel
  obtain ⟨-, -, -, halone⟩ := reachable_loneFragment.collapses
  obtain ⟨sql, values, hcondition, hgroup⟩ := halone _ rfl
  refine ⟨⟨rfl, ?_⟩, ?_⟩
  · rw [hgroup, ← hcondition]
    rfl
  · obtain ⟨g, hg, hshape⟩ := Filter.Outcome.exists_of_gives hgiven
    rw [Bool.and_eq_true, decide_eq_true_iff] at hshape
    obtain ⟨c, hc⟩ := Option.isSome_iff_exists.mp hshape.1
    obtain ⟨hlive, -, -, hsame⟩ := (reachable_loneFragment.folded hg).collapses
    obtain ⟨sql, values, hcondition, hgroup⟩ := hsame c hc
    exact ⟨g, c, hg, hc, hlive, by rw [hcondition, ← hgroup, hshape.2]⟩

end Conjunction

/-! ### Filters and scopes -/

theorem Conjunction.Reachable.foldl_and {g : Conjunction} (h : g.Reachable)
    (cs : List Condition) : (cs.foldl Conjunction.and g).Reachable := by
  induction cs generalizing g with
  | nil => exact h
  | cons c cs ih => exact ih (h.and c)

theorem Selection.Reachable.foldl_restrict {s : Selection} (h : s.Reachable)
    (cs : List Condition) : (cs.foldl Selection.restrict s).Reachable := by
  induction cs generalizing s with
  | nil => exact h
  | cons c cs ih => exact ih (h.restrict c)

/-- A filter is compiled to what a conjunction that can be reached comes to. -/
theorem Filter.exists_reachable_of_compile {f : Filter} {c? : Option Condition}
    (h : f.compile.result = .ok c?) : ∃ g : Conjunction, g.Reachable ∧ g.condition? = c? := by
  obtain ⟨cs, -, hcs⟩ := Outcome.result_bind_eq_ok.mp h
  cases hcs
  exact ⟨.ofList cs, Conjunction.Reachable.empty.foldl_and cs, rfl⟩

/-- The selection of a scope can be reached. -/
theorem Scope.reachable_of_selection {scope : Scope} {s : Selection}
    (h : scope.selection.result = .ok s) : s.Reachable := by
  rw [Scope.result_selection] at h
  obtain ⟨-, -, h⟩ := bind_eq_ok.mp h
  obtain ⟨table, -, h⟩ := bind_eq_ok.mp h
  obtain ⟨cs, -, h⟩ := bind_eq_ok.mp h
  cases h
  have hreached := ((Selection.Reachable.ofTable table).foldl_restrict cs).limited scope.limit
    scope.skip
  rw [Scope.foldl_restrict] at hreached
  exact hreached

end Rowset
