import Rowset.Proofs.Building

/-!
# Conditions without content

Whether a condition has content is decided in two ways. `Condition.isEmpty` looks at the tree: it
goes through all members of all groups and through negations. `Condition.build` leaves out members
that are empty, builds the others, drops those that came to no text and writes nothing for the
negation of nothing, so the text itself can be empty.

An empty condition has no pieces at all (`Condition.render_of_isEmpty`), so it has neither text nor
values. The other direction needs fragments with text: a condition that has content and is written
without text comes down to a fragment without text (`Condition.exists_of_isSilent`).
-/

namespace Rowset.Condition

mutual

/-- **Nothing is written for an empty condition.** -/
theorem render_of_isEmpty : ∀ c : Condition, c.isEmpty = true → c.render = []
  | .all members, h => by
    rw [isEmpty] at h
    rw [render, renderMembers_of_areEmpty _ members h]
    rfl
  | .any members, h => by
    rw [isEmpty] at h
    rw [render, renderMembers_of_areEmpty _ members h]
    rfl
  | .not inner, h => by
    rw [isEmpty] at h
    rw [render, render_of_isEmpty inner h]
    rfl
  | .compare .., h | .null .., h | .memberOf .., h | .between .., h | .fragment .., h => by cases h
  | .always, h | .never, h => by cases h

theorem renderMembers_of_areEmpty : ∀ (alone : Bool) (members : List Condition),
    areEmpty members = true → renderMembers alone members = []
  | _, [], _ => rfl
  | alone, member :: members, h => by
    rw [areEmpty, Bool.and_eq_true] at h
    rw [renderMembers, if_pos h.1, renderMembers_of_areEmpty alone members h.2]

end

/-- What a condition is built to, whatever has been collected before. -/
theorem run_build (c : Condition) (bound : List Value) :
    c.build.run bound = (Sql.text c.render, bound ++ c.values) := by
  rw [c.writes_build bound, values_eq_bindings]

theorem run_build_of_isEmpty {c : Condition} (h : c.isEmpty = true) (bound : List Value) :
    c.build.run bound = ("", bound) := by
  rw [run_build, values_eq_bindings, render_of_isEmpty c h, Sql.text_nil]
  exact Prod.ext rfl (List.append_nil bound)

/-- A condition with content has a text if its fragments have one. -/
theorem isEmpty_of_text_eq {c : Condition} (hf : ∀ s ∈ c.fragments, s.sql ≠ "")
    (h : Sql.text c.render = "") : c.isEmpty = true := by
  by_contra hlive
  rw [Bool.not_eq_true] at hlive
  have hsilent : c.isSilent = true := by rw [← isBlank_render, Sql.isBlank_iff, h]
  obtain ⟨s, hs, hsql⟩ := exists_of_isSilent c hlive hsilent
  exact hf s hs hsql

/-- **A condition is empty exactly when it is built to the empty text,** if all its fragments have a
text, and no value is appended for an empty one. Building a condition appends to the values that
have been collected and leaves these in front, and they have no influence on the text. -/
theorem isEmpty_iff_build (c : Condition) :
    (∀ bound, c.build.run bound = (Sql.text c.render, bound ++ c.values)) ∧
    (c.isEmpty = true → ∀ bound, c.build.run bound = ("", bound)) ∧
    ((∀ s ∈ c.fragments, s.sql ≠ "") →
      ∀ bound, c.isEmpty = true ↔ (c.build.run bound).1 = "") := by
  refine ⟨c.run_build, run_build_of_isEmpty, fun hf bound => ⟨fun h => ?_, fun h => ?_⟩⟩
  · rw [run_build_of_isEmpty h]
  · rw [run_build] at h
    exact isEmpty_of_text_eq hf h

/-- Groups and negations of nothing. -/
def hollowGroups : Condition :=
  .any [.not (.all [.any []]), .all [.not (.not (.all []))]]

/-- Fragments under negations, among groups of nothing: one is left alone, the other one is not. -/
def sparseGroups : Condition :=
  .all [hollowGroups, .not (.any [.all [], .fragment "a = ? OR b" [.int 1]]),
    .any [.not (.all [.fragment "c = ?" [.int 2], hollowGroups, .never])]]

theorem isEmpty_iff_build_sparseGroups :
    (∀ s ∈ sparseGroups.fragments, s.sql ≠ "") ∧
    sparseGroups.isEmpty = false ∧ (sparseGroups.build.run [.null]).1 ≠ "" ∧
    sparseGroups.build.run [.null] =
      ("NOT (a = ? OR b) AND NOT ((c = ?) AND 1=0)", [.null, .int 1, .int 2]) ∧
    hollowGroups.isEmpty = true ∧ hollowGroups.build.run [.null] = ("", [.null]) := by
  have hf : ∀ s ∈ sparseGroups.fragments, s.sql ≠ "" := by decide +kernel
  have hlive : sparseGroups.isEmpty = false := rfl
  have hhollow : hollowGroups.isEmpty = true := rfl
  obtain ⟨hrun, -, hiff⟩ := isEmpty_iff_build sparseGroups
  obtain ⟨-, hnothing, -⟩ := isEmpty_iff_build hollowGroups
  refine ⟨hf, hlive, fun h => ?_, ?_, hhollow, hnothing hhollow [.null]⟩
  · rw [(hiff hf [.null]).mpr h] at hlive
    cases hlive
  · rw [hrun]
    decide +kernel

/-- A fragment without text has content, and its values are appended. -/
example : (fragment "" [.null]).isEmpty = false ∧
    (fragment "" [.null]).build.run [] = ("", [.null]) := ⟨rfl, rfl⟩

end Rowset.Condition
