import Rowset.Proofs.Filling
import Rowset.Statement.Delete
import Rowset.Statement.Insert
import Rowset.Statement.Select
import Rowset.Statement.Update

/-!
# What statements are filled with

Between the words of a statement stand the names, the values and the fragments of the caller. These
are its `Sql.contents`, and here they are given for every statement, in text order and without the
words. What is read off a statement piece by piece and finds nothing in words can be read off its
contents, such as its fragments (`fragments_contents`).

A member of a group without content is not written, and it has no contents
(`Condition.contents_of_isEmpty`).
-/

namespace Rowset

namespace Sql

/-- Holds of the pieces that are not words. -/
def Piece.isContent : Piece → Bool
  | .words _ => false
  | _ => true

/-- **The names, values and fragments among some pieces.** -/
def contents (pieces : List Piece) : List Piece :=
  pieces.filter Piece.isContent

theorem contents_append (a b : List Piece) : contents (a ++ b) = contents a ++ contents b :=
  List.filter_append a b

theorem contents_words (words : String) (pieces : List Piece) :
    contents (.words words :: pieces) = contents pieces := rfl

theorem contents_name (name : Name) (pieces : List Piece) :
    contents (.name name :: pieces) = .name name :: contents pieces := rfl

theorem contents_parenthesized (pieces : List Piece) :
    contents (parenthesized pieces) = contents pieces := by
  rw [parenthesized, List.cons_append, contents_words, contents_append, contents_words]
  exact List.append_nil _

theorem contents_joinAfter (separator : String) (started : Bool) (parts : List (List Piece)) :
    contents (joinAfter separator started parts) = parts.flatMap contents := by
  induction parts generalizing started with
  | nil => rfl
  | cons part parts ih =>
    unfold joinAfter
    split_ifs
    · rw [contents_append, ih, List.flatMap_cons]
    · rw [List.cons_append, contents_words, contents_append, ih, List.flatMap_cons]
    · rw [contents_append, ih, List.flatMap_cons]

theorem contents_joined (separator : String) (parts : List (List Piece)) :
    contents (joined separator parts) = parts.flatMap contents :=
  contents_joinAfter separator false parts

theorem contents_joined_map {α : Type} (separator : String) (f : α → List Piece) (xs : List α) :
    contents (joined separator (xs.map f)) = xs.flatMap fun x => contents (f x) := by
  rw [contents_joined, List.flatMap_map]

theorem contents_nameList (names : List Name) : contents (nameList names) = names.map .name := by
  rw [nameList, contents_joined_map]
  exact (List.map_eq_flatMap).symm

theorem contents_markers (separator : String) (values : List Value) :
    contents (joined separator (values.map fun value => [.marker value])) = values.map .marker := by
  rw [contents_joined_map]
  exact (List.map_eq_flatMap).symm

theorem fragments_contents : ∀ pieces : List Piece, fragments (contents pieces) = fragments pieces
  | [] => rfl
  | .words _ :: pieces => fragments_contents pieces
  | .name _ :: pieces => fragments_contents pieces
  | .marker _ :: pieces => fragments_contents pieces
  | .fragment sql bindings :: pieces =>
    congrArg (Statement.mk sql bindings :: ·) (fragments_contents pieces)

theorem fragments_name (name : Name) (pieces : List Piece) :
    fragments (.name name :: pieces) = fragments pieces := rfl

theorem fragments_flatMap {α : Type} {f : α → List Piece} (h : ∀ x, fragments (f x) = [])
    (xs : List α) : fragments (xs.flatMap f) = [] := by
  induction xs with
  | nil => rfl
  | cons x xs ih => rw [List.flatMap_cons, fragments_append, h x, ih, List.nil_append]

theorem fragments_map {α : Type} {f : α → Piece} (h : ∀ x, fragments [f x] = []) (xs : List α) :
    fragments (xs.map f) = [] := by
  rw [List.map_eq_flatMap]
  exact fragments_flatMap h xs

end Sql

/-! ### Conditions -/

namespace Condition

open Sql (Piece)

mutual

/-- The names, values and fragments of a condition. -/
def contents : Condition → List Piece
  | .all members => memberContents members
  | .any members => memberContents members
  | .not inner => inner.contents
  | .compare column _ value => [.name column, .marker value]
  | .null column _ => [.name column]
  | .memberOf column values _ =>
    if values.isEmpty then [] else .name column :: values.map .marker
  | .between column low high _ => [.name column, .marker low, .marker high]
  | .fragment sql bindings => [.fragment sql bindings]
  | .always => []
  | .never => []

/-- The names, values and fragments of some conditions. -/
def memberContents : List Condition → List Piece
  | [] => []
  | member :: members => member.contents ++ memberContents members

end

theorem memberContents_eq_flatMap (members : List Condition) :
    memberContents members = members.flatMap contents := by
  induction members with
  | nil => rfl
  | cons member members ih => rw [memberContents, List.flatMap_cons, ih]

mutual

theorem contents_of_isEmpty : ∀ c : Condition, c.isEmpty = true → c.contents = []
  | .all members, h => by
    rw [isEmpty] at h
    rw [contents, memberContents_of_areEmpty members h]
  | .any members, h => by
    rw [isEmpty] at h
    rw [contents, memberContents_of_areEmpty members h]
  | .not inner, h => by
    rw [isEmpty] at h
    rw [contents, contents_of_isEmpty inner h]
  | .compare .., h | .null .., h | .memberOf .., h | .between .., h | .fragment .., h => by cases h
  | .always, h | .never, h => by cases h

theorem memberContents_of_areEmpty :
    ∀ members : List Condition, areEmpty members = true → memberContents members = []
  | [], _ => rfl
  | member :: members, h => by
    rw [areEmpty, Bool.and_eq_true] at h
    rw [memberContents, contents_of_isEmpty member h.1, memberContents_of_areEmpty members h.2]
    rfl

end

mutual

/-- **A condition is written with all its contents.** -/
theorem contents_render : ∀ c : Condition, Sql.contents c.render = c.contents
  | .all members => by
    rw [render, contents, Sql.contents_joined, contents_renderMembers]
  | .any members => by
    rw [render, contents, Sql.contents_joined, contents_renderMembers]
  | .not inner => by
    have ih := contents_render inner
    rw [render, contents]
    split_ifs
    · exact ih
    · rw [Sql.contents_words, Sql.contents_parenthesized, ih]
  | .compare .. => rfl
  | .null .. => rfl
  | .memberOf column values negated => by
    rw [render, contents]
    split_ifs
    · rfl
    · rw [test, Sql.contents_name, Sql.contents_words, Sql.contents_parenthesized,
        Sql.contents_markers]
  | .between .. => rfl
  | .fragment .. => rfl
  | .always => rfl
  | .never => rfl

theorem contents_renderMembers : ∀ (alone : Bool) (members : List Condition),
    (renderMembers alone members).flatMap Sql.contents = memberContents members
  | _, [] => rfl
  | alone, member :: members => by
    have ih := contents_renderMembers alone members
    rw [renderMembers, memberContents]
    split_ifs with hempty
    · rw [ih, contents_of_isEmpty member hempty]
      rfl
    · rw [List.flatMap_cons, ih, Sql.contents_parenthesized, contents_render member]
    · rw [List.flatMap_cons, ih, contents_render member]

end

end Condition

/-! ### Selections -/

namespace Selection

/-- The names, values and fragments of the restriction of a selection. -/
def contents (s : Selection) : List Sql.Piece :=
  Condition.memberContents s.restriction.members

theorem contents_whereClause (s : Selection) : Sql.contents s.whereClause = s.contents := by
  have h : Sql.contents s.restriction.render = s.contents := Condition.contents_render _
  dsimp only [whereClause]
  split_ifs
  · exact h
  · rw [Sql.contents_words, h]

theorem contents_limitClause (s : Selection) : Sql.contents s.limitClause = [] := by
  unfold limitClause
  cases s.limit <;> cases s.offset <;> rfl

/-- What the clause is filled with by which a mutation finds its rows. -/
def targetContents (s : Selection) : List Sql.Piece :=
  (if s.isLimited then [.name s.table] else []) ++ s.contents

theorem contents_targetClause (s : Selection) : Sql.contents s.targetClause = s.targetContents := by
  unfold targetClause targetContents
  split_ifs
  · rw [Sql.contents_append, Sql.contents_append, Sql.contents_append, contents_whereClause,
      contents_limitClause, List.append_nil]
    exact List.append_nil _
  · exact contents_whereClause s

end Selection

/-- What the clause is filled with that asks for the touched rows. -/
def returningContents (returning : Bool) (table : Name) : List Sql.Piece :=
  if returning then [.name table] else []

theorem contents_returningClause (returning : Bool) (table : Name) :
    Sql.contents (returningClause returning table) = returningContents returning table := by
  cases returning <;> rfl

/-! ### Statements -/

namespace Select

/-- What a reading is filled with: its columns, its table, the restriction and the sort keys. -/
def contents (q : Select) : List Sql.Piece :=
  q.columns.map .name ++ .name q.selection.table :: q.selection.contents ++
    q.order.map fun key => .name key.1

theorem contents_projection (q : Select) : Sql.contents q.projection = q.columns.map .name := by
  unfold projection
  split_ifs with h
  · rw [List.isEmpty_iff.mp h]
    rfl
  · exact Sql.contents_nameList q.columns

theorem contents_orderClause (q : Select) :
    Sql.contents q.orderClause = q.order.map fun key => .name key.1 := by
  unfold orderClause
  split_ifs with h
  · rw [List.isEmpty_iff.mp h]
    rfl
  · rw [Sql.contents_words, Sql.contents_joined_map]
    exact (List.map_eq_flatMap).symm

theorem contents_render (q : Select) : Sql.contents q.render = q.contents := by
  simp only [render, contents, List.cons_append, List.append_assoc, List.nil_append,
    Sql.contents_words, Sql.contents_name, Sql.contents_append, contents_projection,
    Selection.contents_whereClause, contents_orderClause, Selection.contents_limitClause,
    List.append_nil]

/-- What a count is filled with: its name, its table, the restriction and, if the rows are counted
where they have been taken, the name of these. -/
def countContents (q : Select) : List Sql.Piece :=
  .name Sql.countName :: .name q.selection.table :: q.selection.contents ++
    if q.selection.isLimited then [.name Sql.nestedName] else []

theorem contents_renderCount (q : Select) : Sql.contents q.renderCount = q.countContents := by
  unfold renderCount countContents
  split_ifs
  · simp only [List.cons_append, List.nil_append, List.append_assoc, Sql.contents_words,
      Sql.contents_name, Sql.contents_append, Selection.contents_whereClause,
      Selection.contents_limitClause]
    rfl
  · simp only [List.cons_append, List.nil_append, Sql.contents_words, Sql.contents_name,
      Selection.contents_whereClause, List.append_nil]

end Select

namespace Update

/-- What a change is filled with: its table, the columns with their values, where the rows are
found, and its table again if they are asked for. -/
def contents (q : Update) : List Sql.Piece :=
  .name q.selection.table :: q.assignments.flatMap (fun pair => [.name pair.1, .marker pair.2]) ++
    q.selection.targetContents ++ returningContents q.returning q.selection.table

theorem contents_render (q : Update) : Sql.contents q.render = q.contents := by
  simp only [render, contents, List.cons_append, List.nil_append, List.append_assoc,
    Sql.contents_words, Sql.contents_name, Sql.contents_append, Sql.contents_joined_map,
    Selection.contents_targetClause, contents_returningClause]
  rfl

end Update

namespace Delete

/-- What a removal is filled with: its table, where the rows are found, and its table again if they
are asked for. -/
def contents (q : Delete) : List Sql.Piece :=
  .name q.selection.table :: q.selection.targetContents ++
    returningContents q.returning q.selection.table

theorem contents_render (q : Delete) : Sql.contents q.render = q.contents := by
  simp only [render, contents, List.cons_append, List.nil_append, Sql.contents_words,
    Sql.contents_name, Sql.contents_append, Selection.contents_targetClause,
    contents_returningClause]

end Delete

namespace Insert

/-- What an addition is filled with: its table, the columns, the values row by row, and its table
again if the rows are asked for. -/
def contents (q : Insert) : List Sql.Piece :=
  .name q.table :: q.columns.map (fun column => .name column.2) ++
    q.records.flatMap (fun r => q.columns.flatMap fun column =>
      (r.get? column.1).toList.map .marker) ++
    returningContents q.returning q.table

theorem contents_slot (r : Record) (key : String) :
    Sql.contents (slot r key) = (r.get? key).toList.map .marker := by
  unfold slot
  cases r.get? key <;> rfl

theorem contents_tuple (q : Insert) (r : Record) : Sql.contents (q.tuple r) =
    q.columns.flatMap fun column => (r.get? column.1).toList.map .marker := by
  rw [tuple, Sql.contents_parenthesized, Sql.contents_joined_map]
  exact congrArg q.columns.flatMap (funext fun column => contents_slot r column.1)

theorem contents_render (q : Insert) : Sql.contents q.render = q.contents := by
  simp only [render, contents, List.cons_append, List.nil_append, List.append_assoc,
    Sql.contents_words, Sql.contents_name, Sql.contents_append, contents_returningClause]
  split_ifs with h
  · have hrows : q.records.flatMap (fun _ => ([] : List Sql.Piece)) = [] :=
      List.flatMap_eq_nil_iff.mpr fun _ _ => rfl
    rw [List.isEmpty_iff.mp h]
    simp only [List.map_nil, List.flatMap_nil, hrows, List.nil_append]
    rfl
  · rw [Sql.contents_words, Sql.contents_append, Sql.contents_parenthesized, Sql.contents_nameList,
      Sql.contents_words, Sql.contents_joined_map, List.map_map]
    simp only [contents_tuple, List.append_assoc]
    rfl

end Insert

end Rowset
