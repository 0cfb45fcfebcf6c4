import Rowset.Proofs.Contents
import Rowset.Proofs.Spacing

/-!
# Markers and bindings

Every statement that can be built has its values in the order of its markers. What is built is a
`Builder`: a reading, a count, a change, a removal or an addition. Its pieces are tidy
(`Builder.tidy_render`), so its words hold no marker, and its fragments are those of the restriction
of its rows (`Builder.fragments_render`). So a statement comes out even as soon as the fragments of
the caller do, each on its own.

That the pieces are tidy goes through conditions by their constructors. The fragments are read off
the contents (`Builder.contents_render`): a member that is not written has none.
-/

namespace Rowset

/-! ### Conditions -/

namespace Condition

open Sql (Piece Tidy)

mutual

/-- The fragments of the caller in a condition, in text order. -/
def fragments : Condition → List Statement
  | .all members => memberFragments members
  | .any members => memberFragments members
  | .not inner => inner.fragments
  | .fragment sql bindings => [⟨sql, bindings⟩]
  | _ => []

/-- The fragments of the caller in some conditions. -/
def memberFragments : List Condition → List Statement
  | [] => []
  | member :: members => member.fragments ++ memberFragments members

end

theorem memberFragments_eq_flatMap (members : List Condition) :
    memberFragments members = members.flatMap fragments := by
  induction members with
  | nil => rfl
  | cons member members ih => rw [memberFragments, List.flatMap_cons, ih]

mutual

theorem fragments_contents : ∀ c : Condition, Sql.fragments c.contents = c.fragments
  | .all members => by rw [contents, fragments, fragments_memberContents]
  | .any members => by rw [contents, fragments, fragments_memberContents]
  | .not inner => by rw [contents, fragments, fragments_contents inner]
  | .memberOf column values negated => by
    rw [contents]
    split_ifs
    · rfl
    · exact Sql.fragments_map (fun _ => rfl) values
  | .compare .. | .null .. | .between .. | .fragment .. | .always | .never => rfl

theorem fragments_memberContents :
    ∀ members : List Condition, Sql.fragments (memberContents members) = memberFragments members
  | [] => rfl
  | member :: members => by
    rw [memberContents, memberFragments, Sql.fragments_append, fragments_contents member,
      fragments_memberContents members]

end

theorem isSeparator_sign (op : Comparison) : Sql.isSeparator (" " ++ op.sign ++ " ") = true := by
  rcases op with _ | side
  · decide
  · cases side <;> decide

/-- A test whose operands can stand behind its words. -/
theorem tidy_test {column : Name} {words : String} {operands : List Piece} (hne : words ≠ "")
    (ha : Sql.startsApart words = true) (h : Tidy (.words words :: operands)) :
    Tidy (test column words operands) :=
  Sql.tidy_cons trivial (Sql.trailing_of_tidy hne ha h)

theorem tidy_test_separator {column : Name} {words : String} {operands : List Piece}
    (hw : Sql.isSeparator words = true) (h : Tidy operands) : Tidy (test column words operands) :=
  Sql.tidy_cons trivial (Sql.trailing_separator hw h)

mutual

theorem tidy_render : ∀ (c : Condition), Tidy c.render
  | .all members => by
    rw [render]
    exact Sql.tidy_joined (by decide) (tidy_renderMembers _ members)
  | .any members => by
    rw [render]
    exact Sql.tidy_joined (by decide) (tidy_renderMembers _ members)
  | .not inner => by
    have ih := tidy_render inner
    rw [render]
    split_ifs
    · exact ih
    · exact Sql.tidy_words (by decide) (by decide) (Sql.tidy_parenthesized ih)
  | .compare column op value => by
    rw [render]
    exact tidy_test_separator (isSeparator_sign op) (Sql.tidy_marker value)
  | .null column negated => by
    rw [render]
    cases negated
    · exact tidy_test (by decide) (by decide) (Sql.tidy_spelled (by decide))
    · exact tidy_test (by decide) (by decide) (Sql.tidy_spelled (by decide))
  | .memberOf column values negated => by
    have hlist : Tidy (Sql.parenthesized
        (Sql.joined ", " (values.map fun value => [.marker value]))) :=
      Sql.tidy_parenthesized (Sql.tidy_joined_map (by decide) fun value _ => Sql.tidy_marker value)
    rw [render]
    split_ifs
    · cases negated <;> exact Sql.tidy_spelled (by decide)
    · cases negated <;> exact tidy_test_separator (by decide) hlist
  | .between column low high negated => by
    have hbounds : Tidy [.marker low, .words " AND ", .marker high] :=
      Sql.tidy_cons trivial (Sql.trailing_separator (by decide) (Sql.tidy_marker high))
    rw [render]
    cases negated <;> exact tidy_test_separator (by decide) hbounds
  | .fragment sql bindings => by
    rw [render]
    exact Sql.tidy_singleton trivial
  | .always => by
    rw [render]
    exact Sql.tidy_spelled (by decide)
  | .never => by
    rw [render]
    exact Sql.tidy_spelled (by decide)

theorem tidy_renderMembers : ∀ (alone : Bool) (members : List Condition),
    ∀ part ∈ renderMembers alone members, Tidy part
  | _, [], part, h => by cases h
  | alone, member :: members, part, h => by
    have ih := tidy_renderMembers alone members
    rw [renderMembers] at h
    split_ifs at h
    · exact ih part h
    · rcases List.mem_cons.mp h with rfl | h
      · exact Sql.tidy_parenthesized (tidy_render member)
      · exact ih part h
    · rcases List.mem_cons.mp h with rfl | h
      · exact tidy_render member
      · exact ih part h

end

end Condition

/-! ### Selections -/

namespace Selection

open Sql (Trailing)

/-- The fragments of the caller in the restriction of a selection. -/
def fragments (s : Selection) : List Statement :=
  Condition.memberFragments s.restriction.members

theorem trailing_whereClause (s : Selection) : Trailing s.whereClause := by
  have h : Sql.Tidy s.restriction.render := Condition.tidy_render _
  dsimp only [whereClause]
  split_ifs with hblank
  · exact Sql.trailing_of_isBlank h hblank
  · exact Sql.trailing_separator (by decide) h

theorem trailing_numberClause {words : String} (hw : Sql.isSeparator words = true)
    (number : Option Nat) :
    Trailing (number.map fun n => Sql.Piece.words (words ++ toString n)).toList := by
  simp only [Sql.isSeparator, Bool.and_eq_true, Bool.not_eq_true'] at hw
  obtain ⟨⟨⟨hs, ha⟩, -⟩, hne⟩ := hw
  have hne : words ≠ "" := by
    rintro rfl
    cases hne
  cases number with
  | none => exact Sql.trailing_nil
  | some n =>
    refine Sql.trailing_of_tidy (fun h => hne (String.append_eq_empty_iff.mp h).1) ?_ ?_
    · rw [Sql.startsApart_append_of_ne hne]
      exact ha
    · exact Sql.tidy_spelled (Sql.isSpelled_append hs (Sql.isSpelled_toString n))

theorem trailing_limitClause (s : Selection) : Trailing s.limitClause :=
  Sql.trailing_append (trailing_numberClause (by decide) s.limit)
    (trailing_numberClause (by decide) s.offset)

theorem trailing_targetClause (s : Selection) : Trailing s.targetClause := by
  have hclose : Trailing [.words ")"] :=
    Sql.trailing_spelled (by decide) (by decide) (by decide)
  unfold targetClause
  split_ifs
  · simp only [List.cons_append, List.nil_append, List.append_assoc]
    refine Sql.trailing_separator (by decide) (Sql.tidy_cons trivial ?_)
    exact Sql.trailing_append (trailing_whereClause s)
      (Sql.trailing_append (trailing_limitClause s) hclose)
  · exact trailing_whereClause s

theorem fragments_contents (s : Selection) : Sql.fragments s.contents = s.fragments :=
  Condition.fragments_memberContents _

theorem fragments_targetContents (s : Selection) :
    Sql.fragments s.targetContents = s.fragments := by
  unfold targetContents
  split_ifs <;> exact s.fragments_contents

end Selection

theorem trailing_returningClause (returning : Bool) (table : Name) :
    Sql.Trailing (returningClause returning table) := by
  have hcolumns : Sql.Trailing [.words ".*"] :=
    Sql.trailing_spelled (by decide) (by decide) (by decide)
  unfold returningClause
  split_ifs
  · exact Sql.trailing_separator (by decide) (Sql.tidy_cons trivial hcolumns)
  · exact Sql.trailing_nil

theorem fragments_returningContents (returning : Bool) (table : Name) :
    Sql.fragments (returningContents returning table) = [] := by
  cases returning <;> rfl

/-! ### Statements -/

namespace Select

open Sql (Tidy Trailing)

theorem tidy_projection (q : Select) : Tidy q.projection := by
  unfold projection
  split_ifs
  · exact Sql.tidy_spelled (by decide)
  · exact Sql.tidy_nameList q.columns

theorem trailing_word (direction : Direction) : Trailing [.words (" " ++ direction.word)] := by
  cases direction <;>
    exact Sql.trailing_spelled (by decide) (by decide) (by decide)

theorem trailing_orderClause (q : Select) : Trailing q.orderClause := by
  unfold orderClause
  split_ifs
  · exact Sql.trailing_nil
  · refine Sql.trailing_separator (by decide) (Sql.tidy_joined_map (by decide) ?_)
    intro key _
    exact Sql.tidy_cons trivial (trailing_word key.2)

theorem tidy_render (q : Select) : Tidy q.render := by
  have hclauses :
      Trailing (q.selection.whereClause ++ (q.orderClause ++ q.selection.limitClause)) :=
    Sql.trailing_append q.selection.trailing_whereClause
      (Sql.trailing_append (trailing_orderClause q) q.selection.trailing_limitClause)
  simp only [render, List.cons_append, List.nil_append, List.append_assoc]
  refine Sql.tidy_words (by decide) (by decide) (Sql.tidy_append (tidy_projection q) ?_)
  exact Sql.trailing_separator (by decide) (Sql.tidy_cons trivial hclauses)

theorem tidy_renderCount (q : Select) : Tidy q.renderCount := by
  have hwhere := q.selection.trailing_whereClause
  have hnested : Trailing [.words ") AS ", .name Sql.nestedName] :=
    Sql.trailing_of_tidy (by decide) (by decide)
      (Sql.tidy_words (by decide) (by decide) (Sql.tidy_singleton trivial))
  unfold renderCount
  simp only [List.cons_append, List.nil_append, List.append_assoc]
  refine Sql.tidy_words (by decide) (by decide)
    (Sql.tidy_cons trivial (Sql.trailing_separator (by decide) ?_))
  split_ifs
  · refine Sql.tidy_words (by decide) (by decide) (Sql.tidy_cons trivial ?_)
    exact Sql.trailing_append hwhere
      (Sql.trailing_append q.selection.trailing_limitClause hnested)
  · exact Sql.tidy_cons trivial hwhere

end Select

namespace Update

open Sql (Tidy)

theorem tidy_render (q : Update) : Tidy q.render := by
  have hassignments : Tidy (Sql.joined ", " (q.assignments.map fun pair =>
      [.name pair.1, .words " = ", .marker pair.2])) :=
    Sql.tidy_joined_map (by decide) fun pair _ =>
      Sql.tidy_cons trivial (Sql.trailing_separator (by decide) (Sql.tidy_marker pair.2))
  simp only [render, List.cons_append, List.nil_append, List.append_assoc]
  refine Sql.tidy_words (by decide) (by decide)
    (Sql.tidy_cons trivial (Sql.trailing_separator (by decide) ?_))
  exact Sql.tidy_append hassignments
    (Sql.trailing_append q.selection.trailing_targetClause (trailing_returningClause _ _))

end Update

namespace Delete

open Sql (Tidy)

theorem tidy_render (q : Delete) : Tidy q.render := by
  simp only [render, List.cons_append, List.nil_append]
  refine Sql.tidy_words (by decide) (by decide) (Sql.tidy_cons trivial ?_)
  exact Sql.trailing_append q.selection.trailing_targetClause (trailing_returningClause _ _)

end Delete

namespace Insert

open Sql (Tidy Trailing)

theorem tidy_slot (r : Record) (key : String) : Tidy (slot r key) := by
  unfold slot
  split
  · exact Sql.tidy_marker _
  · exact Sql.tidy_spelled (by decide)

theorem tidy_tuple (q : Insert) (r : Record) : Tidy (q.tuple r) :=
  Sql.tidy_parenthesized (Sql.tidy_joined_map (by decide) fun column _ => tidy_slot r column.1)

theorem tidy_render (q : Insert) : Tidy q.render := by
  have hdefault : Trailing [.words " DEFAULT VALUES"] :=
    Sql.trailing_spelled (by decide) (by decide) (by decide)
  have htuples : Tidy (Sql.joined ", " (q.records.map q.tuple)) :=
    Sql.tidy_joined_map (by decide) fun r _ => tidy_tuple q r
  simp only [render, List.cons_append, List.nil_append]
  refine Sql.tidy_words (by decide) (by decide) (Sql.tidy_cons trivial
    (Sql.trailing_append ?_ (trailing_returningClause _ _)))
  split_ifs
  · exact hdefault
  · refine Sql.trailing_separator (by decide) (Sql.tidy_append ?_ ?_)
    · exact Sql.tidy_parenthesized (Sql.tidy_nameList _)
    · exact Sql.trailing_separator (by decide) htuples

end Insert

/-- A statement that is built, of any kind. -/
inductive Builder where
  /-- Reads the rows of a selection. -/
  | select (q : Select)
  /-- Counts the rows of a selection. -/
  | count (q : Select)
  | update (q : Update)
  | delete (q : Delete)
  | insert (q : Insert)

namespace Builder

/-- The pieces of what is built. -/
def render : Builder → List Sql.Piece
  | .select q => q.render
  | .count q => q.renderCount
  | .update q => q.render
  | .delete q => q.render
  | .insert q => q.render

/-- The statement that is built. -/
def statement (b : Builder) : Statement :=
  Sql.statement b.render

/-- The fragments of the caller in what is built. -/
def fragments : Builder → List Statement
  | .select q => q.selection.fragments
  | .count q => q.selection.fragments
  | .update q => q.selection.fragments
  | .delete q => q.selection.fragments
  | .insert _ => []

/-- The names, values and fragments of what is built, in text order. -/
def contents : Builder → List Sql.Piece
  | .select q => q.contents
  | .count q => q.countContents
  | .update q => q.contents
  | .delete q => q.contents
  | .insert q => q.contents

theorem tidy_render : ∀ b : Builder, Sql.Tidy b.render
  | .select q => q.tidy_render
  | .count q => q.tidy_renderCount
  | .update q => q.tidy_render
  | .delete q => q.tidy_render
  | .insert q => q.tidy_render

theorem plain_render (b : Builder) : Sql.Plain b.render :=
  Sql.plain_of_tidy b.tidy_render

theorem contents_render : ∀ b : Builder, Sql.contents b.render = b.contents
  | .select q => q.contents_render
  | .count q => q.contents_renderCount
  | .update q => q.contents_render
  | .delete q => q.contents_render
  | .insert q => q.contents_render

theorem fragments_contents (b : Builder) : Sql.fragments b.contents = b.fragments := by
  cases b with
  | select q =>
    rw [contents, Select.contents, Sql.fragments_append, Sql.fragments_append,
      Sql.fragments_map (fun _ => rfl), Sql.fragments_map (fun _ => rfl), Sql.fragments_name,
      q.selection.fragments_contents, List.append_nil]
    rfl
  | count q =>
    have hnested : Sql.fragments (if q.selection.isLimited then [.name Sql.nestedName] else []) =
        [] := by
      split_ifs <;> rfl
    rw [contents, Select.countContents, Sql.fragments_append, hnested, Sql.fragments_name,
      Sql.fragments_name, q.selection.fragments_contents, List.append_nil]
    rfl
  | update q =>
    rw [contents, Update.contents, Sql.fragments_append, Sql.fragments_append, Sql.fragments_name,
      Sql.fragments_flatMap (fun _ => rfl), q.selection.fragments_targetContents,
      fragments_returningContents, List.append_nil]
    rfl
  | delete q =>
    rw [contents, Delete.contents, Sql.fragments_append, Sql.fragments_name,
      q.selection.fragments_targetContents, fragments_returningContents, List.append_nil]
    rfl
  | insert q =>
    rw [contents, Insert.contents, Sql.fragments_append, Sql.fragments_append, Sql.fragments_name,
      Sql.fragments_map (fun _ => rfl), fragments_returningContents, List.append_nil]
    refine Sql.fragments_flatMap (fun r => Sql.fragments_flatMap (fun column => ?_) _) _
    exact Sql.fragments_map (fun _ => rfl) _

/-- What is built has the fragments of the restriction and no others. -/
theorem fragments_render (b : Builder) : Sql.fragments b.render = b.fragments := by
  rw [← Sql.fragments_contents, contents_render, fragments_contents]

/-- **Markers stand for the bindings in order.** When every fragment of the caller comes out even,
so does the statement; its markers, filled from left to right with texts for the bindings, give the
text in which every value is written in its place; and binding never refuses it. -/
theorem fill?_eq_some_written (b : Builder) (h : ∀ s ∈ b.fragments, s.Even)
    (write : Value → String) :
    b.statement.Even ∧ b.statement.fill? write = some (Sql.written write b.render) ∧
      ∃ bound, b.statement.bind = .ok bound ∧ bound.params.values = b.statement.bindings := by
  have hf : ∀ s ∈ Sql.fragments b.render, s.Even := by
    rw [fragments_render]
    exact h
  have heven : b.statement.Even := Sql.even_statement b.plain_render hf
  refine ⟨heven, Sql.fill?_statement write b.plain_render hf, ?_⟩
  exact ⟨_, if_pos heven, rfl⟩

/-- A name of two parts, with a quote and a blank in the first. -/
def brokenName : Name :=
  ⟨["a\" b", "c"], by simp, by simp [ProperPart]⟩

/-- A change of a limited selection: values before the restriction, fragments with and without
markers in it, an empty group between them, and a name with a quote. -/
def mixedUpdate : Builder :=
  .update
    { selection :=
        { table := brokenName
          restriction := .ofList
            [.any [.fragment "x = ? OR y = ?" [.text "one", .null], .all [.not (.any [])],
              .not (.between brokenName (.bool true) .null true)],
             .fragment "z IS NULL" [], .memberOf Sql.countName [.text "?", .bool false] true]
          limit := some 2
          offset := some 1 }
      assignments := [(Sql.countName, .bool true), (brokenName, .text "it's")]
      returning := true }

theorem fill?_eq_some_written_mixedUpdate :
    (∀ s ∈ mixedUpdate.fragments, s.Even) ∧ mixedUpdate.statement.Even ∧
      mixedUpdate.statement.fill? Value.display =
        some (Sql.written Value.display mixedUpdate.render) ∧
      ∃ bound, mixedUpdate.statement.bind = .ok bound ∧
        bound.params.values = mixedUpdate.statement.bindings :=
  ⟨by decide +kernel, fill?_eq_some_written mixedUpdate (by decide +kernel) Value.display⟩

end Builder

end Rowset
