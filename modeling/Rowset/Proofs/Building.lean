import Rowset.Proofs.Commands

/-!
# Building conditions step by step

`Condition.render` writes a condition in pieces, from which its text and its values are read
together. The two can also be made step by step: `Condition.build` returns the text and appends the
values, one by one, to those that have been collected before. The two ways agree, and the values
that are there have no influence on the text (`Condition.writes_build`,
`Conjunction.writes_build`).

A step is known by what it returns and what it appends (`Collect.Writes`). Steps one after the other
append their values one after the other (`Collect.Writes.bind`), so that the induction follows the
tree.
-/

namespace Rowset

/-- A step that collects values on the way. -/
abbrev Collect (α : Type) := StateM (List Value) α

namespace Collect

variable {α β : Type}

/-- Appends a value and returns the marker for it. -/
def push (value : Value) : Collect String := do
  modify (· ++ [value])
  pure "?"

/-- Appends some values. -/
def extend (values : List Value) : Collect Unit :=
  modify (· ++ values)

/-- What a step returns, and the values that have been collected then. -/
def run (step : Collect α) (bound : List Value) : α × List Value :=
  Id.run (StateT.run step bound)

/-- **What a step returns and appends,** whatever has been collected before. -/
def Writes (step : Collect α) (a : α) (values : List Value) : Prop :=
  ∀ bound, run step bound = (a, bound ++ values)

theorem writes_pure (a : α) : Writes (pure a) a [] := by
  intro bound
  rw [List.append_nil]
  rfl

theorem writes_extend (values : List Value) : Writes (extend values) () values :=
  fun _ => rfl

theorem Writes.bind {step : Collect α} {next : α → Collect β} {a : α} {b : β}
    {values more : List Value} (h : Writes step a values) (hnext : Writes (next a) b more) :
    Writes (step >>= next) b (values ++ more) := by
  intro bound
  have hrun : run (step >>= next) bound =
      run (next (run step bound).1) (run step bound).2 := rfl
  rw [hrun, h bound, hnext, List.append_assoc]

theorem Writes.map {step : Collect α} {a : α} {values : List Value} (h : Writes step a values)
    (f : α → β) : Writes (step >>= fun a => pure (f a)) (f a) values := by
  have hmap : Writes (step >>= fun a => pure (f a)) (f a) (values ++ []) :=
    h.bind (writes_pure (f a))
  rwa [List.append_nil] at hmap

theorem writes_push (value : Value) : Writes (push value) "?" [value] :=
  (writes_extend [value]).map fun _ => "?"

theorem writes_mapM_push (values : List Value) :
    Writes (values.mapM push) (values.map fun _ => "?") values := by
  induction values with
  | nil => exact writes_pure []
  | cons value values ih =>
    rw [List.mapM_cons]
    exact (writes_push value).bind (ih.map ("?" :: ·))

end Collect

/-! ### Conditions -/

namespace Sql

/-- Joins the texts that are not empty. -/
def joinTexts (separator : String) (parts : List String) : String :=
  separator.intercalate (parts.filter fun part => !part.isEmpty)

/-- Parts without text leave no trace in the text. -/
theorem text_joinAfter_filter (separator : String) (started : Bool) (parts : List (List Piece)) :
    text (joinAfter separator started parts) =
      text (joinAfter separator started (parts.filter fun part => !isBlank part)) := by
  induction parts generalizing started with
  | nil => rfl
  | cons part parts ih =>
    cases hblank : isBlank part with
    | true =>
      rw [joinAfter, if_pos hblank, text_append, isBlank_iff.mp hblank, String.empty_append, ih,
        List.filter_cons_of_neg (by simp [hblank])]
    | false =>
      have hpart : ¬isBlank part = true := by simp [hblank]
      rw [List.filter_cons_of_pos (by simp [hblank]), joinAfter, joinAfter, if_neg hpart,
        if_neg hpart]
      split_ifs
      · rw [List.cons_append, List.cons_append, text_cons, text_cons, text_append, text_append, ih]
      · rw [text_append, text_append, ih]

theorem text_joined_eq_joinTexts (separator : String) (parts : List (List Piece)) :
    text (joined separator parts) = joinTexts separator (parts.map text) := by
  have hlive : ∀ part ∈ parts.filter fun part => !isBlank part, isBlank part = false := by
    intro part hpart
    simpa using (List.mem_filter.mp hpart).2
  have hfilter : (fun part => !isBlank part) = (fun t : String => !t.isEmpty) ∘ text := by
    funext part
    rw [Function.comp_apply, Bool.not_inj_iff, Bool.eq_iff_iff, isBlank_iff, String.isEmpty_iff]
  rw [joined, text_joinAfter_filter, ← joined, text_joined hlive, joinTexts, List.filter_map,
    hfilter]

theorem text_markers (separator : String) (values : List Value) :
    text (joined separator (values.map fun value => [.marker value])) =
      separator.intercalate (values.map fun _ => "?") := by
  have hlive : ∀ part ∈ values.map fun value => [Piece.marker value], isBlank part = false := by
    intro part hpart
    obtain ⟨value, -, rfl⟩ := List.mem_map.mp hpart
    rfl
  rw [text_joined hlive, List.map_map]
  simp [Function.comp_def, text, Piece.text]

end Sql

namespace Condition

open Collect (Writes push extend writes_pure writes_push writes_extend writes_mapM_push)

mutual

/-- **Builds the text of a condition,** while its values are appended to those before. -/
def build : Condition → Collect String
  | .all members => do
    let parts ← buildMembers (contentCount members == 1) members
    pure (Sql.joinTexts " AND " parts)
  | .any members => do
    let parts ← buildMembers (contentCount members == 1) members
    pure (Sql.joinTexts " OR " parts)
  | .not inner => do
    let sql ← inner.build
    pure (if sql.isEmpty then "" else "NOT (" ++ sql ++ ")")
  | .compare column op value => do
    let marker ← push value
    pure (column.quoted ++ " " ++ op.sign ++ " " ++ marker)
  | .null column negated => pure (column.quoted ++ worded negated " IS NULL" " IS NOT NULL")
  | .memberOf column values negated =>
    if values.isEmpty then pure (worded negated "1=0" "1=1")
    else do
      let markers ← values.mapM push
      pure (column.quoted ++ worded negated " IN " " NOT IN " ++ "(" ++
        ", ".intercalate markers ++ ")")
  | .between column low high negated => do
    let first ← push low
    let last ← push high
    pure (column.quoted ++ worded negated " BETWEEN " " NOT BETWEEN " ++ first ++ " AND " ++ last)
  | .fragment sql bindings => do
    extend bindings
    pure sql
  | .always => pure "1=1"
  | .never => pure "1=0"

/-- Builds the texts of the members of a group that have content. -/
def buildMembers (alone : Bool) : List Condition → Collect (List String)
  | [] => pure []
  | member :: members =>
    if member.isEmpty then buildMembers alone members
    else do
      let sql ← member.build
      let parts ← buildMembers alone members
      pure ((if !alone && member.isCompound then "(" ++ sql ++ ")" else sql) :: parts)

end

theorem writes_joined {separator : String} {step : Collect (List String)}
    {parts : List (List Sql.Piece)}
    (h : Writes step (parts.map Sql.text) (parts.flatMap Sql.bindings)) :
    Writes (step >>= fun texts => pure (Sql.joinTexts separator texts))
      (Sql.text (Sql.joined separator parts)) (Sql.bindings (Sql.joined separator parts)) := by
  rw [Sql.text_joined_eq_joinTexts, Sql.bindings_joined]
  exact h.map (Sql.joinTexts separator)

theorem text_test (column : Name) (words : String) (operands : List Sql.Piece) :
    Sql.text (test column words operands) = column.quoted ++ words ++ Sql.text operands := by
  rw [test, Sql.text_cons, Sql.text_cons, ← String.append_assoc]
  rfl

theorem bindings_test (column : Name) (words : String) (operands : List Sql.Piece) :
    Sql.bindings (test column words operands) = Sql.bindings operands := rfl

mutual

/-- **A condition is built as it is written in pieces.** -/
theorem writes_build : ∀ c : Condition, Writes c.build (Sql.text c.render) (Sql.bindings c.render)
  | .all members => by
    rw [build, render]
    exact writes_joined (writes_buildMembers _ members)
  | .any members => by
    rw [build, render]
    exact writes_joined (writes_buildMembers _ members)
  | .not inner => by
    have ih := (writes_build inner).map fun sql =>
      if sql.isEmpty then "" else "NOT (" ++ sql ++ ")"
    rw [build, render]
    split_ifs with hblank
    · have htext := Sql.isBlank_iff.mp hblank
      rw [htext] at ih ⊢
      exact ih
    · have htext : (Sql.text inner.render).isEmpty = false := by
        rw [Bool.eq_false_iff, Ne, String.isEmpty_iff, ← Sql.isBlank_iff]
        exact hblank
      rw [htext] at ih
      rw [Sql.text_cons, Sql.text_parenthesized, Sql.bindings_words, Sql.bindings_parenthesized]
      exact ih
  | .compare column op value => by
    have hpush := (writes_push value).map fun marker =>
      column.quoted ++ " " ++ op.sign ++ " " ++ marker
    rw [build, render, text_test, bindings_test, ← String.append_assoc, ← String.append_assoc]
    exact hpush
  | .null column negated => by
    rw [build, render, text_test, Sql.text_nil, String.append_empty]
    exact writes_pure _
  | .memberOf column values negated => by
    have hmarkers := (writes_mapM_push values).map fun markers =>
      column.quoted ++ worded negated " IN " " NOT IN " ++ "(" ++ ", ".intercalate markers ++ ")"
    rw [build, render]
    split_ifs with hnone
    · exact writes_pure _
    · rw [text_test, bindings_test, Sql.text_parenthesized, Sql.bindings_parenthesized]
      rw [Sql.text_markers, Sql.bindings_markers, ← String.append_assoc, ← String.append_assoc]
      exact hmarkers
  | .between column low high negated => by
    have hlast := (writes_push high).map fun last =>
      column.quoted ++ worded negated " BETWEEN " " NOT BETWEEN " ++ "?" ++ " AND " ++ last
    rw [build, render, text_test, bindings_test, Sql.text_cons, Sql.text_cons,
      ← String.append_assoc, ← String.append_assoc]
    exact (writes_push low).bind hlast
  | .fragment sql bindings => by
    have hfragment := (writes_extend bindings).map fun _ => sql
    have hvalues : Sql.bindings [.fragment sql bindings] = bindings := List.append_nil bindings
    rw [build, render, Sql.text_cons, Sql.text_nil, String.append_empty, hvalues]
    exact hfragment
  | .always => writes_pure "1=1"
  | .never => writes_pure "1=0"

theorem writes_buildMembers : ∀ (alone : Bool) (members : List Condition),
    Writes (buildMembers alone members) ((renderMembers alone members).map Sql.text)
      ((renderMembers alone members).flatMap Sql.bindings)
  | _, [] => writes_pure []
  | alone, member :: members => by
    have ih := writes_buildMembers alone members
    have hmember := writes_build member
    rw [buildMembers, renderMembers]
    split_ifs with hempty hset
    · exact ih
    · rw [List.map_cons, List.flatMap_cons, Sql.text_parenthesized, Sql.bindings_parenthesized]
      exact hmember.bind (ih.map _)
    · rw [List.map_cons, List.flatMap_cons]
      exact hmember.bind (ih.map _)

end

end Condition

/-! ### Conjunctions -/

namespace Conjunction

open Collect (Writes writes_pure)

/-- Builds the text of a conjunction, which has none without members. -/
def build (g : Conjunction) : Collect String :=
  if g.members.isEmpty then pure ""
  else do
    let parts ← Condition.buildMembers (Condition.contentCount g.members == 1) g.members
    pure (Sql.joinTexts " AND " parts)

theorem writes_build (g : Conjunction) :
    Writes g.build (Sql.text g.render) (Sql.bindings g.render) := by
  rw [build, render, Condition.render]
  split_ifs with hnone
  · rw [List.isEmpty_iff.mp hnone]
    exact writes_pure ""
  · exact Condition.writes_joined (Condition.writes_buildMembers _ g.members)

end Conjunction

end Rowset
