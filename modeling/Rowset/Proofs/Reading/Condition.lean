import Rowset.Proofs.Markers
import Rowset.Proofs.Reading.Text
import Mathlib.Data.List.Defs

/-!
# Reading a condition

What the text of a condition is read as, by the constructors of the condition (`shown`): a test is a
single predicate, the negation of a condition a single formula, and a group has the clauses of its
parts, appended for a disjunction and melded for a conjunction. A part in parentheses is a single
formula; a part without them brings its own clauses.

The fragments of the caller are taken as complete: each can be read on its own. Then every text that
is put together here can be read (`read?_render`).
-/

namespace Rowset

open Reading

/-! ### Joined parts -/

namespace Sql

/-- A part that can be read has a text. -/
theorem isBlank_of_read? {part : List Piece} {cs : Clauses} (h : read? (text part) = some cs) :
    isBlank part = false := by
  cases hb : isBlank part with
  | false => rfl
  | true =>
    rw [isBlank_iff.mp hb] at h
    cases h

/-- Parts, each with the clauses that it is read as. -/
abbrev ReadParts (parts : List (List Piece)) (shown : List Clauses) : Prop :=
  List.Forall₂ (fun part cs => read? (text part) = some cs) parts shown

theorem read?_joined_and {parts : List (List Piece)} {shown : List Clauses}
    (h : ReadParts parts shown) (hne : parts ≠ []) :
    read? (text (joined " AND " parts)) = some (Clauses.melded shown) := by
  induction h with
  | nil => exact absurd rfl hne
  | @cons part cs parts shown hpart hparts ih =>
    have hblank := isBlank_of_read? hpart
    cases hparts with
    | nil =>
      rw [joined_singleton, hpart]
      exact congrArg some (Clauses.meld_unit (proper_read? hpart).1).symm
    | cons hnext =>
      rw [text_joined_cons hblank (isBlank_of_read? hnext)]
      exact read?_and hpart (ih (List.cons_ne_nil _ _))

theorem read?_joined_or {parts : List (List Piece)} {shown : List Clauses}
    (h : ReadParts parts shown) (hne : parts ≠ []) :
    read? (text (joined " OR " parts)) = some shown.flatten := by
  induction h with
  | nil => exact absurd rfl hne
  | @cons part cs parts shown hpart hparts ih =>
    have hblank := isBlank_of_read? hpart
    cases hparts with
    | nil =>
      rw [joined_singleton, hpart]
      exact congrArg some (List.append_nil cs).symm
    | cons hnext =>
      rw [text_joined_cons hblank (isBlank_of_read? hnext)]
      exact read?_or hpart (ih (List.cons_ne_nil _ _))

end Sql

/-! ### Tests -/

/-- A word as a tree. -/
def wordTree (text : String) : Tree :=
  .token (.word text)

/-- A sign as a tree. -/
def signTree (c : Char) : Tree :=
  .token (.symbol c)

/-- A marker as a tree. -/
def markerTree : Tree :=
  .token .marker

/-- The trees of a name. -/
def Name.trees (name : Name) : List Tree :=
  (partTokens name.parts).map .token

/-- The trees of the sign of a comparison. -/
def Comparison.trees : Comparison → List Tree
  | .equal => [signTree '=']
  | .bound .above => [signTree '>']
  | .bound .atLeast => [signTree '>', signTree '=']
  | .bound .below => [signTree '<']
  | .bound .atMost => [signTree '<', signTree '=']

/-- Some markers with commas between them. -/
def markerList : Nat → List Tree
  | 0 => []
  | 1 => [markerTree]
  | n + 2 => markerTree :: signTree ',' :: markerList (n + 1)

namespace Condition

/-- The word of a negation where there is one. -/
def negation (negated : Bool) : List Tree :=
  if negated then [wordTree "not"] else []

/-- The words of a test that holds of every row or of none. -/
def constantWords (holds : Bool) : List Tree :=
  [wordTree "1", signTree '=', wordTree (if holds then "1" else "0")]

/-- The words of a test, which make one predicate. -/
def words : Condition → List Tree
  | .compare column op _ => column.trees ++ (op.trees ++ [markerTree])
  | .null column negated =>
    column.trees ++ (wordTree "is" :: negation negated ++ [wordTree "null"])
  | .memberOf column values negated =>
    if values.isEmpty then constantWords negated
    else
      column.trees ++
        (negation negated ++ [wordTree "in"] ++ [.group .round (markerList values.length)])
  | .between column _ _ negated =>
    column.trees ++ (negation negated ++
      [wordTree "between", markerTree, wordTree "and", markerTree])
  | .always => constantWords true
  | .never => constantWords false
  | _ => []

end Condition

theorem trees?_quoted (name : Name) : trees? name.quoted = some name.trees := by
  refine trees?_eq_some.mpr ⟨partTokens name.parts, tokens?_quoted name, nested?_of_isFlat ?_⟩
  intro t ht
  obtain ⟨part, rfl⟩ | rfl := mem_partTokens ht
  · rfl
  · rfl

/-- The text of a test of a column. -/
theorem trees?_test (column : Name) {words : String} {operands : List Sql.Piece} {rest : List Tree}
    (hne : words ≠ "") (hd : isDelimited words = true)
    (h : trees? (words ++ Sql.text operands) = some rest) :
    trees? (Sql.text (Condition.test column words operands)) = some (column.trees ++ rest) := by
  rw [Condition.test, Sql.text_cons, Sql.text_cons]
  exact trees?_append (trees?_quoted column) h (isDelimited_append _ hne hd)

theorem isInner_of_mem_trees {column : Name} {tree : Tree} (h : tree ∈ column.trees) :
    tree.isInner = true := by
  obtain ⟨t, ht, rfl⟩ := List.mem_map.mp h
  obtain ⟨part, rfl⟩ | rfl := mem_partTokens ht
  · rfl
  · decide

/-- What starts with a name and is not split is one predicate. -/
theorem clauses?_column (column : Name) {rest : List Tree}
    (hrest : split? 0 (items column.trees) (items rest) =
      split? 0 (items column.trees ++ items rest) []) :
    clauses? (items (column.trees ++ rest)) = some [[.predicate (column.trees ++ rest)]] := by
  obtain ⟨part, parts, hparts⟩ := List.exists_cons_of_ne_nil column.parts_ne_nil
  obtain ⟨more, hmore⟩ : ∃ more, column.trees = .token (.quoted (Name.quotePart part)) :: more := by
    rw [Name.trees, hparts]
    cases parts with
    | nil => exact ⟨[], rfl⟩
    | cons next parts => exact ⟨_, rfl⟩
  have hfactor : factor? (items (column.trees ++ rest)) =
      some (.predicate (column.trees ++ rest)) := by
    rw [hmore, List.cons_append, items, item_token, factor?_of_unread rfl, map_fst_items]
  have hquery : isQuery (items (column.trees ++ rest)) = false := by
    rw [hmore, List.cons_append, items, item_token]
    rfl
  have hsplit := split?_inner 0 (items rest) [] fun tree => @isInner_of_mem_trees column tree
  rw [clauses?, hquery, items_append, hsplit, List.nil_append, hrest, ← items_append, split?,
    if_pos rfl, hfactor]
  rfl

/-- A test of a column whose words hold no connective. -/
theorem read?_test (column : Name) {words : String} {operands : List Sql.Piece} {rest : List Tree}
    (hne : words ≠ "") (hd : isDelimited words = true)
    (htrees : trees? (words ++ Sql.text operands) = some rest)
    (hrest : ∀ tree ∈ rest, tree.isInner = true) :
    read? (Sql.text (Condition.test column words operands)) =
      some [[.predicate (column.trees ++ rest)]] := by
  refine read?_eq_some.mpr ⟨_, trees?_test column hne hd htrees, clauses?_column column ?_⟩
  have hsplit := split?_inner 0 [] (items column.trees) hrest
  rwa [List.append_nil] at hsplit

/-- A test of a column that ends in a range. -/
theorem read?_test_range (column : Name) {words : String} {operands : List Sql.Piece}
    {first : List Tree} (hne : words ≠ "") (hd : isDelimited words = true)
    (htrees : trees? (words ++ Sql.text operands) =
      some (first ++ [wordTree "between", markerTree, wordTree "and", markerTree]))
    (hfirst : ∀ tree ∈ first, tree.isInner = true) :
    read? (Sql.text (Condition.test column words operands)) =
      some [[.predicate (column.trees ++
        (first ++ [wordTree "between", markerTree, wordTree "and", markerTree]))]] := by
  refine read?_eq_some.mpr ⟨_, trees?_test column hne hd htrees, clauses?_column column ?_⟩
  rw [items_append, split?_inner 0 _ (items column.trees) hfirst, ← List.append_assoc]
  generalize items column.trees ++ items first = before
  -- The AND of the range is the only connective, and it is met with the range open.
  have hrange : split? 0 before
      (items [wordTree "between", markerTree, wordTree "and", markerTree]) =
      split? 0 (before ++ [(wordTree "between").item] ++ [markerTree.item] ++
        [(wordTree "and").item] ++ [markerTree.item]) [] := rfl
  rw [hrange]
  simp only [items, List.append_assoc, List.cons_append, List.nil_append]

theorem text_marker (value : Value) : Sql.text [.marker value] = "?" := by
  simp [Sql.text, Sql.Piece.text]

theorem trees?_markers : ∀ values : List Value, values ≠ [] →
    trees? (Sql.text (Sql.joined ", " (values.map fun value => [.marker value]))) =
      some (markerList values.length)
  | [value], _ => by
    rw [List.map_cons, List.map_nil, Sql.joined_singleton, text_marker]
    rfl
  | value :: next :: values, _ => by
    have ih := trees?_markers (next :: values) (List.cons_ne_nil _ _)
    have hblank : ∀ v : Value, Sql.isBlank [.marker v] = false := fun _ => rfl
    have hfirst : trees? "?" = some [markerTree] := rfl
    have hcomma : trees? "," = some [signTree ','] := rfl
    have hspaced : ", " = "," ++ " " := by decide
    rw [List.map_cons, List.map_cons, Sql.text_joined_cons (hblank value) (hblank next),
      text_marker, hspaced]
    rw [List.map_cons] at ih
    exact trees?_joined hfirst hcomma (by decide) (by decide) ih

namespace Condition

theorem trees?_sign (op : Comparison) :
    trees? (" " ++ op.sign ++ " " ++ "?") = some (op.trees ++ [markerTree]) := by
  rcases op with _ | side
  · rfl
  · cases side <;> rfl

theorem isDelimited_sign (op : Comparison) :
    " " ++ op.sign ++ " " ≠ "" ∧ isDelimited (" " ++ op.sign ++ " ") = true := by
  rcases op with _ | side
  · decide
  · cases side <;> decide

theorem isInner_sign (op : Comparison) : ∀ tree ∈ op.trees ++ [markerTree],
    tree.isInner = true := by
  rcases op with _ | side
  · decide
  · cases side <;> decide

theorem read?_compare (column : Name) (op : Comparison) (value : Value) :
    read? (Sql.text (compare column op value).render) =
      some [[.predicate (compare column op value).words]] := by
  have htrees : trees? (" " ++ op.sign ++ " " ++ Sql.text [.marker value]) =
      some (op.trees ++ [markerTree]) := by rw [text_marker, trees?_sign]
  obtain ⟨hne, hd⟩ := isDelimited_sign op
  rw [render]
  exact read?_test column hne hd htrees (isInner_sign op)

theorem read?_null (column : Name) (negated : Bool) :
    read? (Sql.text (null column negated).render) =
      some [[.predicate (null column negated).words]] := by
  rw [render]
  cases negated
  · exact read?_test column (by decide) (by decide) rfl (by decide)
  · exact read?_test column (by decide) (by decide) rfl (by decide)

theorem read?_memberOf (column : Name) (values : List Value) (negated : Bool) :
    read? (Sql.text (memberOf column values negated).render) =
      some [[.predicate (memberOf column values negated).words]] := by
  rw [render, words]
  split_ifs with hempty
  · cases negated <;> rfl
  · have hne : values ≠ [] := fun h => hempty (by rw [h]; rfl)
    have hlist : trees? (Sql.text (Sql.parenthesized
        (Sql.joined ", " (values.map fun value => [.marker value])))) =
          some [.group .round (markerList values.length)] := by
      rw [Sql.text_parenthesized]
      exact trees?_parenthesized (trees?_markers values hne)
    cases negated
    · have hin : trees? " IN" = some [wordTree "in"] := rfl
      have hspaced : worded false " IN " " NOT IN " = " IN" ++ " " := by decide
      rw [hspaced]
      refine read?_test column (by decide) (by decide) (trees?_words_append hin hlist) ?_
      simp [negation, Tree.isInner, Tree.isWord, wordTree]
    · have hin : trees? " NOT IN" = some [wordTree "not", wordTree "in"] := rfl
      have hspaced : worded true " IN " " NOT IN " = " NOT IN" ++ " " := by decide
      rw [hspaced]
      refine read?_test column (by decide) (by decide) (trees?_words_append hin hlist) ?_
      simp [negation, Tree.isInner, Tree.isWord, wordTree]

theorem read?_between (column : Name) (low high : Value) (negated : Bool) :
    read? (Sql.text (between column low high negated).render) =
      some [[.predicate (between column low high negated).words]] := by
  have htext : Sql.text [.marker low, .words " AND ", .marker high] = "? AND ?" := by
    simp [Sql.text, Sql.Piece.text]
  rw [render]
  cases negated
  · have htrees : trees? (" BETWEEN " ++ "? AND ?") =
        some ([] ++ [wordTree "between", markerTree, wordTree "and", markerTree]) := rfl
    rw [← htext] at htrees
    exact read?_test_range column (by decide) (by decide) htrees (by decide)
  · have htrees : trees? (" NOT BETWEEN " ++ "? AND ?") =
        some ([wordTree "not"] ++
          [wordTree "between", markerTree, wordTree "and", markerTree]) := rfl
    rw [← htext] at htrees
    exact read?_test_range column (by decide) (by decide) htrees (by decide)

/-! ### Groups -/

mutual

/-- **The clauses of the text of a condition.** -/
def shown : Condition → Clauses
  | .all members => Clauses.melded (shownMembers (contentCount members == 1) members)
  | .any members => (shownMembers (contentCount members == 1) members).flatten
  | .not inner => [[.not (Clauses.formula inner.shown)]]
  | .fragment sql _ => (read? sql).getD []
  | test => [[.predicate test.words]]

/-- The clauses of the parts of a group, which are one formula where a part is in parentheses. -/
def shownMembers (alone : Bool) : List Condition → List Clauses
  | [] => []
  | member :: members =>
    if member.isEmpty then shownMembers alone members
    else if !alone && member.isCompound then
      [[Clauses.formula member.shown]] :: shownMembers alone members
    else member.shown :: shownMembers alone members

end

theorem renderMembers_ne_nil (alone : Bool) : ∀ {members : List Condition},
    areEmpty members = false → renderMembers alone members ≠ []
  | member :: members, h => by
    rw [areEmpty, Bool.and_eq_false_iff] at h
    rw [renderMembers]
    split_ifs with hempty
    · exact renderMembers_ne_nil alone (h.resolve_left (by rw [hempty]; decide))
    · exact List.cons_ne_nil _ _
    · exact List.cons_ne_nil _ _

mutual

/-- **The text of a condition is read as its clauses,** if every fragment can be read on its own. -/
theorem read?_render : ∀ c : Condition, c.isEmpty = false →
    (∀ s ∈ c.fragments, (read? s.sql).isSome = true) → read? (Sql.text c.render) = some c.shown
  | .all members, hlive, hf => by
    rw [isEmpty] at hlive
    rw [render, shown]
    exact Sql.read?_joined_and (readParts _ members hf) (renderMembers_ne_nil _ hlive)
  | .any members, hlive, hf => by
    rw [isEmpty] at hlive
    rw [render, shown]
    exact Sql.read?_joined_or (readParts _ members hf) (renderMembers_ne_nil _ hlive)
  | .not inner, hlive, hf => by
    rw [isEmpty] at hlive
    have ih := read?_render inner hlive hf
    have hblank := Sql.isBlank_of_read? ih
    rw [render, shown]
    simp only [hblank]
    rw [if_neg (by decide), Sql.text_cons, Sql.text_parenthesized]
    exact read?_not ih
  | .compare column op value, _, _ => read?_compare column op value
  | .null column negated, _, _ => read?_null column negated
  | .memberOf column values negated, _, _ => read?_memberOf column values negated
  | .between column low high negated, _, _ => read?_between column low high negated
  | .fragment sql bindings, _, hf => by
    have hread := hf ⟨sql, bindings⟩ List.mem_cons_self
    have htext : Sql.text (render (.fragment sql bindings)) = sql := by
      simp [render, Sql.text, Sql.Piece.text]
    rw [htext, shown]
    exact (Option.some_get hread).symm.trans (by rw [Option.get_eq_getD])
  | .always, _, _ => rfl
  | .never, _, _ => rfl

theorem readParts : ∀ (alone : Bool) (members : List Condition),
    (∀ s ∈ memberFragments members, (read? s.sql).isSome = true) →
      Sql.ReadParts (renderMembers alone members) (shownMembers alone members)
  | _, [], _ => .nil
  | alone, member :: members, hf => by
    have ih := readParts alone members fun s hs => hf s (List.mem_append_right _ hs)
    have hmember : ∀ s ∈ member.fragments, (read? s.sql).isSome = true := fun s hs =>
      hf s (List.mem_append_left _ hs)
    rw [renderMembers, shownMembers]
    split_ifs with hempty hcompound
    · exact ih
    · refine .cons ?_ ih
      rw [Sql.text_parenthesized]
      exact read?_parenthesized (read?_render member (Bool.eq_false_iff.mpr hempty) hmember)
    · exact .cons (read?_render member (Bool.eq_false_iff.mpr hempty) hmember) ih

end

end Condition

end Rowset
