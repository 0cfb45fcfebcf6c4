import Rowset.Proofs.Planning

/-!
# When rows are restricted

All statements on a scope share one WHERE clause (`Builder.sql_statement`), and it is left out when
the restriction has no text. Whether it has one is decided in two places: compilation gives no
condition for a trivial filter, and rendering gives no text for a condition that is silent.

A condition is silent when it comes down to fragments without text, through negations and groups in
which no such member is set in parentheses (`Condition.isSilent`). So a filter that restricts
something is lost if it is silent, and in no other case (`Scope.restrictionText_ne_iff`); this needs
a fragment without text (`Condition.exists_of_isSilent`).
-/

namespace Rowset

/-! ### Pieces without text -/

namespace Sql

theorem isBlank_append (a b : List Piece) : isBlank (a ++ b) = (isBlank a && isBlank b) :=
  List.all_append

theorem isBlank_parenthesized (pieces : List Piece) : isBlank (parenthesized pieces) = false := rfl

/-- Nothing is written between parts without text. -/
theorem isBlank_joinAfter (separator : String) (started : Bool) {parts : List (List Piece)} :
    isBlank (joinAfter separator started parts) = parts.all isBlank := by
  induction parts generalizing started with
  | nil => rfl
  | cons part parts ih =>
    rw [joinAfter, List.all_cons]
    split_ifs with hblank
    · rw [isBlank_append, ih]
    · rw [← List.singleton_append, List.append_assoc, isBlank_append, isBlank_append]
      simp [hblank]
    · rw [isBlank_append, ih]

theorem isBlank_joined (separator : String) (parts : List (List Piece)) :
    isBlank (joined separator parts) = parts.all isBlank :=
  isBlank_joinAfter separator false

end Sql

/-! ### Silent conditions -/

namespace Condition

open Sql (Piece)

mutual

/-- **Holds of the conditions without text.** Only a fragment is silent on its own. -/
def isSilent : Condition → Bool
  | .all members => areSilent (contentCount members == 1) members
  | .any members => areSilent (contentCount members == 1) members
  | .not inner => inner.isSilent
  | .fragment sql _ => sql.isEmpty
  | _ => false

/-- Holds of the members of a group of which none is written: each of them is empty, or silent and
not set in parentheses. -/
def areSilent (alone : Bool) : List Condition → Bool
  | [] => true
  | member :: members =>
    (member.isEmpty || (alone || !member.isCompound) && member.isSilent) && areSilent alone members

end

theorem isBlank_test (column : Name) (words : String) (operands : List Piece) :
    Sql.isBlank (test column words operands) = false := by
  show (column.quoted.isEmpty && _) = false
  rw [Sql.isEmpty_quoted]
  rfl

mutual

/-- **The silent conditions are those that are written without text.** -/
theorem isBlank_render : ∀ c : Condition, Sql.isBlank c.render = c.isSilent
  | .all members => by
    rw [render, isSilent, Sql.isBlank_joined, isBlank_renderMembers]
  | .any members => by
    rw [render, isSilent, Sql.isBlank_joined, isBlank_renderMembers]
  | .not inner => by
    have ih := isBlank_render inner
    rw [render, isSilent, ← ih]
    split_ifs with hblank
    · rfl
    · rw [Bool.not_eq_true] at hblank
      rw [hblank]
      rfl
  | .compare .. => by
    rw [render, isBlank_test]
    rfl
  | .null .. => by
    rw [render, isBlank_test]
    rfl
  | .memberOf column values negated => by
    rw [render]
    split_ifs
    · cases negated <;> rfl
    · exact isBlank_test ..
  | .between .. => by
    rw [render, isBlank_test]
    rfl
  | .fragment sql bindings => by
    rw [render, isSilent]
    exact Bool.and_true _
  | .always => rfl
  | .never => rfl

theorem isBlank_renderMembers : ∀ (alone : Bool) (members : List Condition),
    (renderMembers alone members).all Sql.isBlank = areSilent alone members
  | _, [] => rfl
  | alone, member :: members => by
    have ih := isBlank_renderMembers alone members
    rw [renderMembers, areSilent, ← ih, ← isBlank_render member]
    split_ifs with hempty hset
    · rw [hempty]
      rfl
    · rw [Bool.and_eq_true, Bool.not_eq_true'] at hset
      rw [List.all_cons, Sql.isBlank_parenthesized, hset.1, hset.2]
      simp [hempty]
    · have hbare : (alone || !member.isCompound) = true := by
        cases alone <;> simp_all
      rw [Bool.not_eq_true] at hempty
      rw [List.all_cons, hempty, hbare, Bool.false_or, Bool.true_and]

end

mutual

/-- **A silent condition has a fragment without text,** unless it is empty. -/
theorem exists_of_isSilent : ∀ c : Condition, c.isEmpty = false → c.isSilent = true →
    ∃ s ∈ c.fragments, s.sql = ""
  | .all members, hlive, h => by
    rw [isEmpty] at hlive
    rw [isSilent] at h
    exact exists_of_areSilent _ members hlive h
  | .any members, hlive, h => by
    rw [isEmpty] at hlive
    rw [isSilent] at h
    exact exists_of_areSilent _ members hlive h
  | .not inner, hlive, h => by
    rw [isEmpty] at hlive
    rw [isSilent] at h
    exact exists_of_isSilent inner hlive h
  | .fragment sql bindings, _, h => by
    rw [isSilent] at h
    exact ⟨_, List.mem_singleton.mpr rfl, String.isEmpty_iff.mp h⟩
  | .compare .., _, h | .null .., _, h | .memberOf .., _, h | .between .., _, h => by cases h
  | .always, _, h | .never, _, h => by cases h

theorem exists_of_areSilent : ∀ (alone : Bool) (members : List Condition),
    areEmpty members = false → areSilent alone members = true →
      ∃ s ∈ memberFragments members, s.sql = ""
  | _, [], hlive, _ => by cases hlive
  | alone, member :: members, hlive, h => by
    rw [areSilent, Bool.and_eq_true] at h
    rw [memberFragments]
    cases hempty : member.isEmpty with
    | true =>
      rw [areEmpty, hempty] at hlive
      obtain ⟨s, hs, htext⟩ := exists_of_areSilent alone members hlive h.2
      exact ⟨s, List.mem_append_right _ hs, htext⟩
    | false =>
      have hsilent : member.isSilent = true := by
        have hmember := h.1
        rw [hempty, Bool.false_or, Bool.and_eq_true] at hmember
        exact hmember.2
      obtain ⟨s, hs, htext⟩ := exists_of_isSilent member hempty hsilent
      exact ⟨s, List.mem_append_left _ hs, htext⟩

end

/-- Conditions together are written as the one that they come to. -/
theorem render_of_collapse {cs : List Condition} {c : Condition}
    (hlive : ∀ d ∈ cs, d.isEmpty = false) (h : Filter.collapse cs = some c) :
    (Condition.all cs).render = c.render := by
  rw [Filter.collapse, Filter.ofList_of_live hlive] at h
  rcases cs with _ | ⟨d, _ | ⟨e, cs⟩⟩
  · cases h
  · cases h
    have hd := hlive c List.mem_cons_self
    rw [render, renderMembers, renderMembers]
    simp [contentCount, hd, Sql.joined_singleton]
  · cases h
    rfl

end Condition

/-! ### Filters and scopes -/

/-- **Holds of the filters that come to a condition without text.** -/
def Filter.isSilent (f : Filter) : Bool :=
  f.compile.gives fun condition => condition.any Condition.isSilent

namespace Selection

/-- The text of the restriction, which stands behind WHERE. -/
def restrictionText (s : Selection) : String :=
  Sql.text s.restriction.render

/-- The text of the WHERE clause. -/
def whereText (s : Selection) : String :=
  if s.restrictionText = "" then "" else " WHERE " ++ s.restrictionText

theorem text_whereClause (s : Selection) : Sql.text s.whereClause = s.whereText := by
  unfold whereClause whereText restrictionText
  dsimp only
  split_ifs with hblank hempty hempty
  · exact hempty
  · exact absurd (Sql.isBlank_iff.mp hblank) hempty
  · exact absurd (Sql.isBlank_iff.mpr hempty) hblank
  · exact Sql.text_cons _ _

/-- What stands before the WHERE clause of a mutation: nothing, or the start of the sub-select that
finds the rows of a limited selection. -/
def targetHead (s : Selection) : List Sql.Piece :=
  if s.isLimited then [.words " WHERE ctid IN (SELECT ctid FROM ", .name s.table] else []

/-- What stands behind the WHERE clause of a mutation. -/
def targetTail (s : Selection) : List Sql.Piece :=
  if s.isLimited then s.limitClause ++ [.words ")"] else []

theorem targetClause_eq (s : Selection) :
    s.targetClause = s.targetHead ++ s.whereClause ++ s.targetTail := by
  unfold targetClause targetHead targetTail
  split_ifs
  · rw [List.append_assoc _ s.limitClause]
  · rw [List.nil_append, List.append_nil]

end Selection

namespace Builder

/-- The pieces before the WHERE clause. -/
def head : Builder → List Sql.Piece
  | .select q => .words "SELECT " :: q.projection ++ [.words " FROM ", .name q.selection.table]
  | .count q =>
    [.words "SELECT COUNT(*) AS ", .name Sql.countName, .words " FROM "] ++
      if q.selection.isLimited then [.words "(SELECT * FROM ", .name q.selection.table]
      else [.name q.selection.table]
  | .update q =>
    [.words "UPDATE ", .name q.selection.table, .words " SET "] ++
      Sql.joined ", " (q.assignments.map fun (column, value) =>
        [.name column, .words " = ", .marker value]) ++ q.selection.targetHead
  | .delete q => [.words "DELETE FROM ", .name q.selection.table] ++ q.selection.targetHead
  | .insert q => q.render

/-- The pieces behind the WHERE clause. -/
def tail : Builder → List Sql.Piece
  | .select q => q.orderClause ++ q.selection.limitClause
  | .count q =>
    if q.selection.isLimited then
      q.selection.limitClause ++ [.words ") AS ", .name Sql.nestedName]
    else []
  | .update q => q.selection.targetTail ++ returningClause q.returning q.selection.table
  | .delete q => q.selection.targetTail ++ returningClause q.returning q.selection.table
  | .insert _ => []

/-- **All statements about a selection share its WHERE clause.** -/
theorem render_eq {b : Builder} {s : Selection} (h : b.selection? = some s) :
    b.render = b.head ++ s.whereClause ++ b.tail := by
  cases b <;> cases h
  case select q => simp [render, head, tail, Select.render]
  case count q =>
    simp only [render, head, tail, Select.renderCount]
    split_ifs <;> simp
  case update q => simp [render, head, tail, Update.render, Selection.targetClause_eq]
  case delete q => simp [render, head, tail, Delete.render, Selection.targetClause_eq]

theorem sql_statement {b : Builder} {s : Selection} (h : b.selection? = some s) :
    b.statement.sql = Sql.text b.head ++ s.whereText ++ Sql.text b.tail := by
  show Sql.text b.render = _
  rw [render_eq h, Sql.text_append, Sql.text_append, s.text_whereClause]

end Builder

namespace Scope

variable {scope : Scope} {s : Selection} (h : scope.Selects s)
include h

theorem compile_wholeFilter :
    scope.wholeFilter.compile.result = .ok (Filter.collapse s.restriction.members) :=
  Filter.Outcome.result_bind_eq_ok.mpr ⟨_, h.compiled, rfl⟩

/-- **The restriction is the text of the condition that the filter comes to.** -/
theorem restrictionText_eq {c : Condition} (hc : scope.wholeFilter.compile.result = .ok (some c)) :
    s.restrictionText = Sql.text c.render := by
  rw [compile_wholeFilter h] at hc
  cases hsome : Filter.collapse s.restriction.members with
  | none =>
    rw [hsome] at hc
    cases hc
  | some d =>
    rw [hsome] at hc
    cases hc
    exact congrArg Sql.text (Condition.render_of_collapse h.adds.live hsome)

theorem restrictionText_ne_iff : s.restrictionText ≠ "" ↔
    scope.wholeFilter.isTrivial = false ∧ scope.wholeFilter.isSilent = false := by
  have hcompile := compile_wholeFilter h
  have htrivial := (Filter.collapse_eq_none_iff h.adds.live).trans h.adds.eq_nil_iff
  unfold Filter.isSilent Filter.Outcome.gives
  rw [hcompile]
  cases hsome : Filter.collapse s.restriction.members with
  | none =>
    have hnil := (Filter.collapse_eq_none_iff h.adds.live).mp hsome
    have htext : s.restrictionText = "" := by
      rw [Selection.restrictionText, Conjunction.render, hnil]
      rfl
    simp [htext, htrivial.mp hsome]
  | some c =>
    rw [hsome] at hcompile htrivial
    have hnontrivial : scope.wholeFilter.isTrivial = false :=
      Bool.eq_false_iff.mpr fun ht => Option.some_ne_none c (htrivial.mpr ht)
    rw [restrictionText_eq h hcompile, Ne, ← Sql.isBlank_iff, Condition.isBlank_render]
    simp [hnontrivial]

/-- A silent filter has a fragment without text. -/
theorem exists_of_isSilent (hsilent : scope.wholeFilter.isSilent = true) :
    ∃ f ∈ scope.wholeFilter.fragments, f.sql = "" := by
  obtain ⟨condition, hc, hsilent⟩ := Filter.Outcome.exists_of_gives hsilent
  cases condition with
  | none => cases hsilent
  | some c =>
    have hcompile := compile_wholeFilter h
    have hsome : Filter.collapse s.restriction.members = some c := by
      rw [hc] at hcompile
      exact (Except.ok.inj hcompile).symm
    have hlive := Filter.isEmpty_of_collapse h.adds.live hsome
    obtain ⟨f, hf, htext⟩ := Condition.exists_of_isSilent c hlive hsilent
    have hsub := Filter.fragments_collapse h.adds.live
    rw [hsome, Option.toList_some, List.flatMap_singleton] at hsub
    exact ⟨f, h.adds.fragments (hsub ▸ hf), htext⟩

end Scope

/-- **When a filter restricts the rows of a request.** On a scope whose filter compiles, the text
behind WHERE is that of the condition that the filter comes to, and it is there exactly when the
filter is not trivial and not silent; a silent filter has a fragment without text in it. Every
statement about the selection of the scope has this one WHERE clause, in the sub-select if there is
one, and every request on the scope plans such a statement. -/
theorem Scope.whereText_of_filter {scope : Scope} {s : Selection}
    (hs : scope.selection.result = .ok s) :
    (s.restrictionText ≠ "" ↔
      scope.wholeFilter.isTrivial = false ∧ scope.wholeFilter.isSilent = false) ∧
    (scope.wholeFilter.isSilent = true → ∃ f ∈ scope.wholeFilter.fragments, f.sql = "") ∧
    (∀ c, scope.wholeFilter.compile.result = .ok (some c) → s.restrictionText = Sql.text c.render) ∧
    (∀ b : Builder, b.selection? = some s →
      b.statement.sql = Sql.text b.head ++ s.whereText ++ Sql.text b.tail) ∧
    ∀ (r : Request) (st : Statement), r.scope? = some scope → r.plan = .ok (.send st) →
      ∃ b : Builder, b.statement = st ∧ b.selection? = some s := by
  have h := selects_of_result hs
  refine ⟨restrictionText_ne_iff h, exists_of_isSilent h, fun c hc => restrictionText_eq h hc,
    fun b hb => Builder.sql_statement hb, ?_⟩
  · intro r st hscope hplan
    obtain ⟨b, hb, rfl⟩ := Request.builds_of_plan hplan
    obtain ⟨s', hs', hbs⟩ := hb.selection? hscope
    cases hs.symm.trans hs'
    exact ⟨b, rfl, hbs⟩

/-- A disjunction behind a trivial one, a negation and a fragment without text beside another
condition, which is set in parentheses. -/
def guardedScope : Scope :=
  { Scope.ofTable "t" with
    filter := some (.all [.any [.missing "a", .all []], .any [.fragment "" [], .not (.any [])]])
    skip := some 1 }

theorem Scope.whereText_of_filter_guardedScope :
    ∃ s, guardedScope.selection.result = .ok s ∧ s.restrictionText ≠ "" ∧
      s.whereText = " WHERE () OR 1=0" ∧ (Builder.delete ⟨s, true⟩).statement.sql =
        Sql.text (Builder.delete ⟨s, true⟩).head ++ " WHERE () OR 1=0" ++
          Sql.text (Builder.delete ⟨s, true⟩).tail := by
  have htext : guardedScope.selection.gives
      (fun s => decide (s.whereText = " WHERE () OR 1=0")) = true := by decide +kernel
  obtain ⟨s, hs, htext⟩ := Filter.Outcome.exists_of_gives htext
  have htext := of_decide_eq_true htext
  obtain ⟨hne, -, -, hsql, -⟩ := whereText_of_filter hs
  refine ⟨s, hs, hne.mpr ⟨rfl, by decide +kernel⟩, htext, ?_⟩
  rw [hsql _ rfl, htext]

/-- A fragment without text, which restricts something by its kind. -/
def hollowScope : Scope :=
  { Scope.ofTable "t" with filter := some (.fragment "" []) }

/-- A removal with a filter that is not trivial can be sent without a WHERE clause. -/
theorem Scope.sent_hollowScope :
    hollowScope.wholeFilter.isTrivial = false ∧
      ((Request.deleteAll hollowScope).run .standard
        (fun (n : Nat) _ => (⟨.ok [], 0⟩, n)) 0).1.sent =
        [⟨"DELETE FROM \"t\" RETURNING \"t\".*", ⟨[]⟩⟩] :=
  ⟨rfl, by decide +kernel⟩

end Rowset
