import Rowset.Proofs.Bindings
import Rowset.Proofs.Refusal
import Rowset.Proofs.Restriction

/-!
# Commands

A command is a statement of the database in its parts: which columns are read, of which table, under
which WHERE clause, in which order, and how many rows are taken after how many. `Command.statement`
writes it down. Every statement about a selection is a command in which the clause of the selection
stands in one place (`Builder.statement_eq`): behind the table, or in a sub-select where the rows of
a limited selection are taken.
-/

namespace Rowset

namespace Sql

/-- Parts with text are joined by the separator. -/
theorem text_joined {separator : String} : ∀ {parts : List (List Piece)},
    (∀ part ∈ parts, isBlank part = false) →
      text (joined separator parts) = separator.intercalate (parts.map text)
  | [], _ => rfl
  | [part], h => by
    rw [joined_singleton, List.map_singleton, String.intercalate_singleton]
  | part :: next :: parts, h => by
    have hpart := h part List.mem_cons_self
    have hnext := h next (List.mem_cons_of_mem _ List.mem_cons_self)
    rw [text_joined_cons hpart hnext, text_joined fun p hp => h p (List.mem_cons_of_mem _ hp)]
    exact String.intercalate_cons_cons.symm

theorem text_nil : text [] = "" := rfl

/-- Parts that start with a name are joined by the separator. -/
theorem text_joined_named {α : Type} (separator : String) (name : α → Name)
    (rest : α → List Piece) (xs : List α) :
    text (joined separator (xs.map fun x => .name (name x) :: rest x)) =
      separator.intercalate (xs.map fun x => (name x).quoted ++ text (rest x)) := by
  rw [text_joined, List.map_map]
  · simp only [Function.comp_def, text_cons]
    rfl
  · intro part hpart
    obtain ⟨x, -, rfl⟩ := List.mem_map.mp hpart
    show ((name x).quoted.isEmpty && _) = false
    rw [isEmpty_quoted]
    rfl

end Sql

/-- A WHERE clause: its text, empty or led by the word, and the values for its markers. -/
structure Clause where
  text : String
  values : List Value

/-- A reading in its parts. -/
structure Query where
  /-- The text of what is read. -/
  columns : String
  table : Name
  clause : Clause
  order : List (Name × Direction)
  limit : Option Nat
  skip : Option Nat

namespace Query

/-- The text of an ORDER BY clause. -/
def orderText (order : List (Name × Direction)) : String :=
  if order.isEmpty then ""
  else " ORDER BY " ++ ", ".intercalate (order.map fun key => key.1.quoted ++ (" " ++ key.2.word))

/-- The text of the clauses that say how many rows are taken after how many. -/
def pageText (limit skip : Option Nat) : String :=
  (match limit with
    | some n => " LIMIT " ++ toString n
    | none => "") ++
  match skip with
    | some n => " OFFSET " ++ toString n
    | none => ""

/-- **The text of a reading.** -/
def text (q : Query) : String :=
  "SELECT " ++ q.columns ++ " FROM " ++ q.table.quoted ++ q.clause.text ++ orderText q.order ++
    pageText q.limit q.skip

end Query

/-- The rows that a mutation is about. -/
inductive Target where
  /-- Those that meet a clause. -/
  | matching (clause : Clause)
  /-- Those with the physical row ids that a reading gives. -/
  | picked (q : Query)

namespace Target

def text : Target → String
  | .matching clause => clause.text
  | .picked q => " WHERE ctid IN (" ++ q.text ++ ")"

theorem text_matching (clause : Clause) : (matching clause).text = clause.text := rfl

theorem text_picked (q : Query) : (picked q).text = " WHERE ctid IN (" ++ q.text ++ ")" := rfl

def values : Target → List Value
  | .matching clause => clause.values
  | .picked q => q.clause.values

end Target

/-- **A statement about the rows of one table, in its parts.** -/
inductive Command where
  /-- Reads rows. -/
  | read (q : Query)
  /-- Counts the rows that meet a clause. -/
  | count (table : Name) (clause : Clause)
  /-- Counts the rows of a reading. -/
  | countRows (q : Query)
  | update (table : Name) (assignments : List (Name × Value)) (target : Target)
  | delete (table : Name) (target : Target)

namespace Command

/-- The text of a command. -/
def text : Command → String
  | .read q => q.text
  | .count table clause => "SELECT COUNT(*) AS \"count\" FROM " ++ table.quoted ++ clause.text
  | .countRows q => "SELECT COUNT(*) AS \"count\" FROM (" ++ q.text ++ ") AS \"t\""
  | .update table assignments target =>
    "UPDATE " ++ table.quoted ++ " SET " ++
      ", ".intercalate (assignments.map fun pair => pair.1.quoted ++ " = ?") ++ target.text ++
      " RETURNING " ++ table.quoted ++ ".*"
  | .delete table target =>
    "DELETE FROM " ++ table.quoted ++ target.text ++ " RETURNING " ++ table.quoted ++ ".*"

theorem text_update (table : Name) (assignments : List (Name × Value)) (target : Target) :
    (update table assignments target).text =
      "UPDATE " ++ table.quoted ++ " SET " ++
        ", ".intercalate (assignments.map fun pair => pair.1.quoted ++ " = ?") ++ target.text ++
        " RETURNING " ++ table.quoted ++ ".*" := rfl

theorem text_delete (table : Name) (target : Target) : (delete table target).text =
    "DELETE FROM " ++ table.quoted ++ target.text ++ " RETURNING " ++ table.quoted ++ ".*" := rfl

/-- The values for the markers of a command, in text order. -/
def values : Command → List Value
  | .read q => q.clause.values
  | .count _ clause => clause.values
  | .countRows q => q.clause.values
  | .update _ assignments target => assignments.map (·.2) ++ target.values
  | .delete _ target => target.values

/-- **The statement of a command.** -/
def statement (c : Command) : Statement :=
  ⟨c.text, c.values⟩

end Command

/-! ### The commands of selections -/

namespace Selection

/-- The clause of a selection. -/
def clause (s : Selection) : Clause :=
  ⟨s.whereText, s.values⟩

/-- The reading of a selection. -/
def query (s : Selection) (columns : String) (order : List (Name × Direction)) : Query :=
  ⟨columns, s.table, s.clause, order, s.limit, s.offset⟩

/-- The rows of a selection, for a mutation. -/
def target (s : Selection) : Target :=
  if s.isLimited then .picked (s.query "ctid" []) else .matching s.clause

/-- The count of the rows of a selection. -/
def counted (s : Selection) : Command :=
  if s.isLimited then .countRows (s.query "*" []) else .count s.table s.clause

theorem text_limitClause (s : Selection) :
    Sql.text s.limitClause = Query.pageText s.limit s.offset := by
  unfold limitClause Query.pageText
  cases s.limit <;> cases s.offset <;>
    simp [Sql.text, String.join, Sql.Piece.text]

theorem text_targetClause (s : Selection) : Sql.text s.targetClause = s.target.text := by
  unfold targetClause target
  split_ifs
  · simp only [Sql.text_append, Sql.text_cons, text_whereClause, text_limitClause,
      Target.text_picked, Query.text, query, Query.orderText, clause, List.isEmpty_nil, if_true,
      Sql.text_nil, Sql.Piece.text, String.append_empty, String.append_assoc]
    rfl
  · exact (text_whereClause s).trans (Target.text_matching s.clause).symm

theorem values_target (s : Selection) : s.target.values = s.values := by
  unfold target
  split_ifs <;> rfl

end Selection

namespace Builder

/-- The text of what is read. -/
def columnsText (names : List Name) : String :=
  if names.isEmpty then "*" else ", ".intercalate (names.map Name.quoted)

/-- The command that a statement about a selection is; a mutation has to ask for the rows it
touches. -/
def command? : Builder → Option Command
  | .select q => some (.read (q.selection.query (columnsText q.columns) q.order))
  | .count q => some q.selection.counted
  | .update ⟨s, assignments, true⟩ => some (.update s.table assignments s.target)
  | .delete ⟨s, true⟩ => some (.delete s.table s.target)
  | _ => none

end Builder

theorem Select.text_projection (q : Select) :
    Sql.text q.projection = Builder.columnsText q.columns := by
  unfold projection Builder.columnsText
  split_ifs
  · rfl
  · refine (Sql.text_joined_named ", " id (fun _ => []) q.columns).trans ?_
    simp only [Sql.text_nil, String.append_empty, id_eq]

theorem Select.text_orderClause (q : Select) :
    Sql.text q.orderClause = Query.orderText q.order := by
  unfold orderClause Query.orderText
  split_ifs
  · rfl
  · have hkeys := Sql.text_joined_named ", " Prod.fst
      (fun key : Name × Direction => [.words (" " ++ key.2.word)]) q.order
    simp only [Sql.text_cons, Sql.text_nil, Sql.Piece.text, String.append_empty] at hkeys
    rw [Sql.text_cons]
    exact congrArg (" ORDER BY " ++ ·) hkeys

theorem Update.text_assignments (q : Update) :
    Sql.text (Sql.joined ", " (q.assignments.map fun (column, value) =>
      [.name column, .words " = ", .marker value])) =
      ", ".intercalate (q.assignments.map fun pair => pair.1.quoted ++ " = ?") := by
  have hpairs := Sql.text_joined_named ", " Prod.fst
    (fun pair : Name × Value => [.words " = ", .marker pair.2]) q.assignments
  simp only [Sql.text_cons, Sql.text_nil, Sql.Piece.text, String.append_empty] at hpairs
  exact hpairs

/-- The text of the clause that asks for the touched rows. -/
def returningText (returning : Bool) (table : Name) : String :=
  if returning then " RETURNING " ++ table.quoted ++ ".*" else ""

theorem returningText_true (table : Name) :
    returningText true table = " RETURNING " ++ table.quoted ++ ".*" := rfl

theorem text_returningClause (returning : Bool) (table : Name) :
    Sql.text (returningClause returning table) = returningText returning table := by
  cases returning with
  | false => rfl
  | true =>
    show Sql.text [.words " RETURNING ", .name table, .words ".*"] =
      " RETURNING " ++ table.quoted ++ ".*"
    simp only [Sql.text_cons, Sql.text_nil, Sql.Piece.text, String.append_empty,
      String.append_assoc]

namespace Builder

theorem sql_select (q : Select) : (Builder.select q).statement.sql =
    (q.selection.query (columnsText q.columns) q.order).text := by
  show Sql.text q.render = _
  simp only [Select.render, Query.text, Selection.query, Selection.clause, Sql.text_cons,
    Sql.text_append, Sql.text_nil, Sql.Piece.text, Select.text_projection,
    Selection.text_whereClause, Select.text_orderClause, Selection.text_limitClause,
    String.append_empty, String.append_assoc, List.cons_append]

theorem sql_count (q : Select) : (Builder.count q).statement.sql =
    if q.selection.isLimited then
      "SELECT COUNT(*) AS \"count\" FROM (" ++ (q.selection.query "*" []).text ++ ") AS \"t\""
    else
      "SELECT COUNT(*) AS \"count\" FROM " ++ q.selection.table.quoted ++
        q.selection.clause.text := by
  have hhead : Sql.text [.words "SELECT COUNT(*) AS ", .name Sql.countName, .words " FROM "] =
      "SELECT COUNT(*) AS \"count\" FROM " := by decide +kernel
  show Sql.text q.renderCount = _
  unfold Select.renderCount
  rw [Sql.text_append, hhead]
  split_ifs
  · have hopen : "SELECT COUNT(*) AS \"count\" FROM " ++ "(SELECT * FROM " =
        "SELECT COUNT(*) AS \"count\" FROM (" ++ "SELECT " ++ "*" ++ " FROM " := by decide +kernel
    have hclose : Sql.text [.words ") AS ", .name Sql.nestedName] = ") AS \"t\"" := by
      decide +kernel
    have hfrom : Sql.text [.words "(SELECT * FROM ", .name q.selection.table] =
        "(SELECT * FROM " ++ q.selection.table.quoted := by
      rw [Sql.text_cons, Sql.text_cons, Sql.text_nil, String.append_empty]
      rfl
    simp only [Query.text, Selection.query, Selection.clause, Query.orderText, Sql.text_append,
      hfrom, hclose, Selection.text_whereClause, Selection.text_limitClause, List.isEmpty_nil,
      if_true, String.append_empty, ← String.append_assoc, ← hopen]
  · simp only [Selection.clause, Sql.text_cons, Sql.Piece.text, Selection.text_whereClause,
      String.append_assoc]

theorem sql_update (q : Update) : (Builder.update q).statement.sql =
    "UPDATE " ++ q.selection.table.quoted ++ " SET " ++
      ", ".intercalate (q.assignments.map fun pair => pair.1.quoted ++ " = ?") ++
      q.selection.target.text ++ returningText q.returning q.selection.table := by
  show Sql.text q.render = _
  simp only [Update.render, Sql.text_cons, Sql.text_append, Sql.text_nil, Sql.Piece.text,
    Update.text_assignments, Selection.text_targetClause, text_returningClause,
    String.append_empty, String.append_assoc]

theorem sql_delete (q : Delete) : (Builder.delete q).statement.sql =
    "DELETE FROM " ++ q.selection.table.quoted ++ q.selection.target.text ++
      returningText q.returning q.selection.table := by
  show Sql.text q.render = _
  simp only [Delete.render, Sql.text_cons, Sql.text_append, Sql.text_nil,
    Sql.Piece.text, Selection.text_targetClause, text_returningClause, String.append_empty,
    String.append_assoc]

/-- **Every statement about a selection is a command.** -/
theorem statement_eq {b : Builder} {c : Command} (h : b.command? = some c) :
    b.statement = c.statement := by
  have hvalues := b.bindings_statement
  cases b with
  | select q =>
    cases h
    exact congrArg₂ Statement.mk (sql_select q) hvalues
  | count q =>
    have hsql := sql_count q
    cases h
    unfold Selection.counted
    split_ifs at hsql ⊢
    · exact congrArg₂ Statement.mk hsql hvalues
    · exact congrArg₂ Statement.mk hsql hvalues
  | update q =>
    obtain ⟨s, assignments, returning⟩ := q
    cases returning with
    | false => cases h
    | true =>
      cases h
      have hsql : (Builder.update ⟨s, assignments, true⟩).statement.sql =
          (Command.update s.table assignments s.target).text := by
        rw [sql_update, Command.text_update]
        simp only [returningText_true, String.append_assoc]
      refine congrArg₂ Statement.mk hsql (hvalues.trans ?_)
      exact congrArg (assignments.map (·.2) ++ ·) s.values_target.symm
  | delete q =>
    obtain ⟨s, returning⟩ := q
    cases returning with
    | false => cases h
    | true =>
      cases h
      have hsql : (Builder.delete ⟨s, true⟩).statement.sql =
          (Command.delete s.table s.target).text := by
        rw [sql_delete, Command.text_delete]
        simp only [returningText_true, String.append_assoc]
      exact congrArg₂ Statement.mk hsql (hvalues.trans s.values_target.symm)
  | insert q => cases h

end Builder

/-! ### The commands of requests -/

namespace Request

/-- **A request on a scope gives a command,** about the selection of the scope. -/
inductive Commands (s : Selection) : Request → Command → Prop where
  | query {scope : Scope} {order : List Name}
      (horder : Name.parseAll (scope.order.map (·.column)) = .ok order) :
      Commands s (.query scope) (.read (s.query "*" (order.zip (scope.order.map (·.direction)))))
  | count {scope : Scope} : Commands s (.count scope) s.counted
  | select {scope : Scope} {columns : List String} {names order : List Name}
      (hnames : Name.parseAll columns = .ok names)
      (horder : Name.parseAll (scope.order.map (·.column)) = .ok order) :
      Commands s (.select scope columns) (.read
        (s.query (Builder.columnsText names) (order.zip (scope.order.map (·.direction)))))
  | updateAll {scope : Scope} {attributes : Record} {names : List Name}
      (hne : attributes.entries ≠ []) (hnames : Name.parseAll attributes.columns = .ok names) :
      Commands s (.updateAll scope attributes)
        (.update s.table (names.zip (attributes.entries.map (·.2))) s.target)
  | deleteAll {scope : Scope} : Commands s (.deleteAll scope) (.delete s.table s.target)

section Scope
variable {r : Request} {scope : Scope} {s : Selection} (hscope : r.scope? = some scope)
  (hs : scope.selection.result = .ok s)
include hscope hs

theorem commands_of_builds {b : Builder} (h : r.Builds b) :
    ∃ c, r.Commands s c ∧ b.command? = some c := by
  cases h with
  | query hs' horder =>
    cases hscope
    cases hs.symm.trans hs'
    exact ⟨_, .query horder, rfl⟩
  | count hs' =>
    cases hscope
    cases hs.symm.trans hs'
    exact ⟨_, .count, rfl⟩
  | select hs' hnames horder =>
    cases hscope
    cases hs.symm.trans hs'
    exact ⟨_, .select hnames horder, rfl⟩
  | updateAll hs' hnames hne =>
    cases hscope
    cases hs.symm.trans hs'
    exact ⟨_, .updateAll hne hnames, rfl⟩
  | deleteAll hs' =>
    cases hscope
    cases hs.symm.trans hs'
    exact ⟨_, .deleteAll, rfl⟩
  | insertAll => cases hscope

theorem builds_of_commands {c : Command} (h : r.Commands s c) :
    ∃ b, r.Builds b ∧ b.command? = some c := by
  cases h with
  | query horder =>
    cases hscope
    exact ⟨_, .query hs horder, rfl⟩
  | count =>
    cases hscope
    exact ⟨_, .count hs, rfl⟩
  | select hnames horder =>
    cases hscope
    exact ⟨_, .select hs hnames horder, rfl⟩
  | updateAll hne hnames =>
    cases hscope
    exact ⟨_, .updateAll hs hnames hne, rfl⟩
  | deleteAll =>
    cases hscope
    exact ⟨_, .deleteAll hs, rfl⟩

/-- **What is sent for a request on a scope is its command.** -/
theorem plan_eq_send_iff {st : Statement} :
    r.plan = .ok (.send st) ↔ ∃ c, r.Commands s c ∧ st = c.statement := by
  constructor
  · intro h
    obtain ⟨b, hb, rfl⟩ := builds_of_plan h
    obtain ⟨c, hc, hbc⟩ := commands_of_builds hscope hs hb
    exact ⟨c, hc, Builder.statement_eq hbc⟩
  · rintro ⟨c, hc, rfl⟩
    obtain ⟨b, hb, hbc⟩ := builds_of_commands hscope hs hc
    rw [plan_of_builds hb, Builder.statement_eq hbc]

end Scope

end Request

end Rowset
