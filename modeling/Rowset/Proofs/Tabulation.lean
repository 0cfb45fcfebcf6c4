import Rowset.Proofs.Commands

/-!
# Tables of slots

A statement that adds records is a table: its columns are the keys of the records, sorted, and each
record has a tuple with one slot for each column. A slot holds a marker where the record has the
key, and the word for the default where it has not. Records may lack different keys, so how many
values the slots before one take depends on all the records before it.

`Insert.textBefore` is the text in front of a slot. The markers in it are as many as the values that
come before the value of the slot (`Insert.marks_textBefore`, `Insert.getElem?_flatMap_cells`), and
`Insert.readBack?` reads the records back from the table and the values. `Insert.Tabulates` says all
of this of a statement.
-/

namespace Rowset

namespace Sql

/-- How many markers a text has. -/
def marks (t : String) : ℕ :=
  t.toList.count '?'

theorem marks_append (a b : String) : marks (a ++ b) = marks a + marks b := by
  rw [marks, String.toList_append, List.count_append]
  rfl

theorem marks_eq_zero {t : String} : marks t = 0 ↔ '?' ∉ t.toList :=
  List.count_eq_zero

/-- Separators without markers add none. -/
theorem marks_intercalate {separator : String} (h : marks separator = 0) :
    ∀ ts : List String, marks (separator.intercalate ts) = marks (String.join ts)
  | [] => rfl
  | [t] => by rw [String.intercalate_singleton, String.join_cons, marks_append]; rfl
  | t :: next :: ts => by
    have ih := marks_intercalate h (next :: ts)
    rw [String.intercalate_cons_cons, marks_append, marks_append, h, ih, Nat.add_zero,
      ← marks_append, ← String.join_cons]

/-- A part of a joined text stands behind the parts before it, each with its separator. -/
theorem exists_intercalate_eq (separator : String) {ts : List String} {i : ℕ} {t : String}
    (h : ts[i]? = some t) : ∃ behind, separator.intercalate ts =
      String.join ((ts.take i).map (· ++ separator)) ++ t ++ behind := by
  induction ts generalizing i with
  | nil => simp at h
  | cons first ts ih =>
    cases i with
    | zero =>
      cases h
      cases ts with
      | nil => exact ⟨"", by simp [String.join]⟩
      | cons next ts =>
        refine ⟨separator ++ separator.intercalate (next :: ts), ?_⟩
        rw [String.intercalate_cons_cons, String.append_assoc]
        simp [String.join]
    | succ i =>
      rw [List.getElem?_cons_succ] at h
      obtain ⟨behind, hbehind⟩ := ih h
      cases ts with
      | nil => simp at h
      | cons next ts =>
        refine ⟨behind, ?_⟩
        rw [String.intercalate_cons_cons, hbehind, List.take_succ_cons, List.map_cons,
          String.join_cons]
        simp only [String.append_assoc]

end Sql

namespace Insert

/-- What stands in one place of a tuple. -/
inductive Slot where
  /-- The word for the default of the column. -/
  | omitted
  /-- The marker for a value. -/
  | marker
  deriving DecidableEq, Repr

namespace Slot

def text : Slot → String
  | omitted => "DEFAULT"
  | marker => "?"

/-- The slot for a value, or for none. -/
def ofValue? : Option Value → Slot
  | some _ => marker
  | none => omitted

theorem ofValue?_eq_omitted {value? : Option Value} :
    ofValue? value? = omitted ↔ value? = none := by
  cases value? <;> simp [ofValue?]

end Slot

/-- The text of a tuple. -/
def tupleText (row : List Slot) : String :=
  "(" ++ ", ".intercalate (row.map Slot.text) ++ ")"

/-- The text of some tuples. -/
def tuplesText (grid : List (List Slot)) : String :=
  ", ".intercalate (grid.map tupleText)

/-- The text in front of the tuples. -/
def headText (table : Name) (names : List Name) : String :=
  "INSERT INTO " ++ table.quoted ++ " (" ++ ", ".intercalate (names.map Name.quoted) ++ ") VALUES "

theorem headText_eq (table : Name) (names : List Name) : headText table names =
    "INSERT INTO " ++ table.quoted ++ " (" ++ ", ".intercalate (names.map Name.quoted) ++
      ") VALUES " := rfl

/-- The text of an addition without columns. -/
def defaultText (table : Name) : String :=
  "INSERT INTO " ++ table.quoted ++ " DEFAULT VALUES"

/-- What stands in the tuple `i` for the column `j`. -/
def slot? (grid : List (List Slot)) (i j : ℕ) : Option Slot :=
  grid[i]?.bind (·[j]?)

/-- The text of the tuples in front of that slot. -/
def textBefore (grid : List (List Slot)) (i j : ℕ) : String :=
  String.join ((grid.take i).map fun row => tupleText row ++ ", ") ++ "(" ++
    String.join (((grid.getD i []).take j).map fun slot => slot.text ++ ", ")

/-- A slot stands behind the text in front of it. -/
theorem exists_tuplesText_eq {grid : List (List Slot)} {i j : ℕ} {slot : Slot}
    (h : slot? grid i j = some slot) :
    ∃ behind, tuplesText grid = textBefore grid i j ++ slot.text ++ behind := by
  obtain ⟨row, hrow, hslot⟩ := Option.bind_eq_some_iff.mp h
  have htuple : (grid.map tupleText)[i]? = some (tupleText row) := by
    rw [List.getElem?_map, hrow, Option.map_some]
  have htext : (row.map Slot.text)[j]? = some slot.text := by
    rw [List.getElem?_map, hslot, Option.map_some]
  obtain ⟨tuples, htuples⟩ := Sql.exists_intercalate_eq ", " htuple
  obtain ⟨slots, hslots⟩ := Sql.exists_intercalate_eq ", " htext
  have hgetD : grid.getD i [] = row := by rw [List.getD_eq_getElem?_getD, hrow, Option.getD_some]
  refine ⟨slots ++ ")" ++ tuples, ?_⟩
  rw [tuplesText, htuples, tupleText, hslots, textBefore, hgetD]
  simp only [← List.map_take, List.map_map, Function.comp_def, String.append_assoc]

/-! ### Markers in the text -/

theorem marks_headText (table : Name) (names : List Name) :
    Sql.marks (headText table names) = 0 := by
  have hnames : '?' ∉ (", ".intercalate (names.map Name.quoted)).toList := by
    refine Sql.notMem_intercalate (by decide) fun t ht => ?_
    obtain ⟨name, -, rfl⟩ := List.mem_map.mp ht
    exact Sql.notMem_quoted name
  have htable := Sql.marks_eq_zero.mpr (Sql.notMem_quoted table)
  have hlist := Sql.marks_eq_zero.mpr hnames
  have hwords : Sql.marks "INSERT INTO " = 0 ∧ Sql.marks " (" = 0 ∧ Sql.marks ") VALUES " = 0 := by
    decide
  simp only [headText_eq, Sql.marks_append, htable, hlist, hwords]

/-- Texts that have as many markers as some slots have them together, too. -/
theorem marks_join_map {α : Type} {t : α → String} {row : α → List Slot}
    (h : ∀ x, Sql.marks (t x) = (row x).count .marker) (xs : List α) :
    Sql.marks (String.join (xs.map t)) = (xs.flatMap row).count .marker := by
  induction xs with
  | nil => rfl
  | cons x xs ih =>
    rw [List.map_cons, String.join_cons, Sql.marks_append, h, ih, List.flatMap_cons,
      List.count_append]

theorem marks_separator : Sql.marks ", " = 0 := by decide

theorem marks_slot (slot : Slot) : Sql.marks slot.text = [slot].count .marker := by
  cases slot <;> rfl

theorem marks_tupleText (row : List Slot) : Sql.marks (tupleText row) = row.count .marker := by
  have hparens : Sql.marks "(" = 0 ∧ Sql.marks ")" = 0 := by decide
  have hslots := marks_join_map marks_slot row
  rw [List.flatMap_singleton'] at hslots
  rw [tupleText, Sql.marks_append, Sql.marks_append, Sql.marks_intercalate marks_separator, hslots,
    hparens.1, hparens.2, Nat.zero_add, Nat.add_zero]

/-- The markers in front of a slot are those of the tuples before and of the slots before. -/
theorem marks_textBefore (grid : List (List Slot)) (i j : ℕ) :
    Sql.marks (textBefore grid i j) =
      (grid.take i).flatten.count .marker + ((grid.getD i []).take j).count .marker := by
  have hopen : Sql.marks "(" = 0 := by decide
  have htuple : ∀ row : List Slot, Sql.marks (tupleText row ++ ", ") = row.count .marker := by
    intro row
    rw [Sql.marks_append, marks_tupleText, marks_separator, Nat.add_zero]
  have hslot : ∀ slot : Slot, Sql.marks (slot.text ++ ", ") = [slot].count .marker := by
    intro slot
    rw [Sql.marks_append, marks_slot, marks_separator, Nat.add_zero]
  rw [textBefore, Sql.marks_append, Sql.marks_append, hopen, marks_join_map htuple,
    marks_join_map hslot, List.flatMap_singleton', List.flatMap_id', Nat.add_zero]

/-! ### The table of some records -/

section Table
variable (columns : List (String × Name))

/-- The slots of a record. -/
def slots (r : Record) : List Slot :=
  columns.map fun column => .ofValue? (r.get? column.1)

/-- The values for the markers in them. -/
def cells (r : Record) : List Value :=
  columns.flatMap fun column => (r.get? column.1).toList

theorem count_slots (r : Record) : (slots columns r).count .marker = (cells columns r).length := by
  induction columns with
  | nil => rfl
  | cons column columns ih =>
    rw [cells, List.flatMap_cons, List.length_append, slots, List.map_cons, List.count_cons,
      Nat.add_comm]
    refine congrArg₂ (· + ·) ?_ ih
    cases r.get? column.1 <;> rfl

theorem count_flatMap_slots (records : List Record) :
    (records.flatMap (slots columns)).count .marker = (records.flatMap (cells columns)).length := by
  induction records with
  | nil => rfl
  | cons r records ih =>
    rw [List.flatMap_cons, List.count_append, count_slots, ih, List.flatMap_cons,
      List.length_append]

/-- The markers in front of a slot are as many as the values of the records before and of the
columns before. -/
theorem marks_textBefore_slots {records : List Record} {i : ℕ} {r : Record}
    (h : records[i]? = some r) (j : ℕ) :
    Sql.marks (textBefore (records.map (slots columns)) i j) =
      ((records.take i).flatMap (cells columns)).length + (cells (columns.take j) r).length := by
  have hrow : (records.map (slots columns)).getD i [] = slots columns r := by
    rw [List.getD_eq_getElem?_getD, List.getElem?_map, h]
    rfl
  have htake : (slots columns r).take j = slots (columns.take j) r := (List.map_take ..).symm
  rw [marks_textBefore, hrow, htake, count_slots, ← List.map_take, ← List.flatMap_def,
    count_flatMap_slots]

end Table

/-- What stands at a place of one of the lists stands behind the lists before it. -/
theorem getElem?_flatMap_of_getElem? {α β : Type} {f : α → List β} {xs : List α} {i : ℕ} {x : α}
    (h : xs[i]? = some x) {k : ℕ} {y : β} (hy : (f x)[k]? = some y) :
    (xs.flatMap f)[((xs.take i).flatMap f).length + k]? = some y := by
  induction xs generalizing i with
  | nil => simp at h
  | cons first xs ih =>
    cases i with
    | zero =>
      cases h
      have hk : k < (f x).length := (List.getElem?_eq_some_iff.mp hy).1
      rw [List.take_zero, List.flatMap_nil, List.length_nil, Nat.zero_add, List.flatMap_cons,
        List.getElem?_append_left hk, hy]
    | succ i =>
      rw [List.getElem?_cons_succ] at h
      have hle : (f first).length ≤ (f first).length + (((xs.take i).flatMap f).length + k) := by
        omega
      rw [List.take_succ_cons, List.flatMap_cons, List.flatMap_cons, List.length_append,
        Nat.add_assoc, List.getElem?_append_right hle, Nat.add_sub_cancel_left, ih h]

/-- The value of a cell stands behind the values of the records before and of the columns before. -/
theorem getElem?_flatMap_cells {columns : List (String × Name)} {records : List Record} {i j : ℕ}
    {r : Record} {column : String × Name} {value : Value} (hr : records[i]? = some r)
    (hcolumn : columns[j]? = some column) (hvalue : r.get? column.1 = some value) :
    (records.flatMap (cells columns))[((records.take i).flatMap (cells columns)).length +
      (cells (columns.take j) r).length]? = some value := by
  have hcell : (cells columns r)[(cells (columns.take j) r).length + 0]? = some value := by
    refine getElem?_flatMap_of_getElem? hcolumn ?_
    rw [hvalue]
    rfl
  exact getElem?_flatMap_of_getElem? hr hcell

/-! ### Reading back -/

section Reading
variable {κ : Type}

/-- Reads one tuple back: the cells that have a marker, under the label of their column, and the
values that are left. -/
def readRow? : List κ → List Slot → List Value → Option (List (κ × Value) × List Value)
  | [], [], values => some ([], values)
  | _ :: labels, .omitted :: row, values => readRow? labels row values
  | label :: labels, .marker :: row, value :: values =>
    (readRow? labels row values).map fun read => ((label, value) :: read.1, read.2)
  | _, _, _ => none

/-- **Reads a table back** from its columns, its tuples and the values, of which none may be
left. -/
def readBack? (labels : List κ) : List (List Slot) → List Value → Option (List (List (κ × Value)))
  | [], [] => some []
  | [], _ :: _ => none
  | row :: grid, values =>
    (readRow? labels row values).bind fun read =>
      (readBack? labels grid read.2).map (read.1 :: ·)

/-- The cells of a record, each under the label of its column. -/
def labelled (label : String × Name → κ) (columns : List (String × Name)) (r : Record) :
    List (κ × Value) :=
  columns.filterMap fun column => (r.get? column.1).map (label column, ·)

theorem readRow?_slots (label : String × Name → κ) (columns : List (String × Name)) (r : Record)
    (rest : List Value) :
    readRow? (columns.map label) (slots columns r) (cells columns r ++ rest) =
      some (labelled label columns r, rest) := by
  induction columns with
  | nil => rfl
  | cons column columns ih =>
    have hslots : slots (column :: columns) r =
        .ofValue? (r.get? column.1) :: slots columns r := rfl
    have hcells : cells (column :: columns) r = (r.get? column.1).toList ++ cells columns r := rfl
    rw [hslots, hcells, List.map_cons, List.append_assoc]
    cases hvalue : r.get? column.1 with
    | none =>
      have hskip : labelled label (column :: columns) r = labelled label columns r :=
        List.filterMap_cons_none (by rw [hvalue]; rfl)
      rw [hskip]
      exact ih
    | some value =>
      have htake : labelled label (column :: columns) r =
          (label column, value) :: labelled label columns r :=
        List.filterMap_cons_some (by rw [hvalue]; rfl)
      rw [htake]
      show (readRow? (columns.map label) (slots columns r) (cells columns r ++ rest)).map _ = _
      rw [ih]
      rfl

/-- The table of some records is read back as their cells. -/
theorem readBack?_slots (label : String × Name → κ) (columns : List (String × Name))
    (records : List Record) :
    readBack? (columns.map label) (records.map (slots columns)) (records.flatMap (cells columns)) =
      some (records.map (labelled label columns)) := by
  induction records with
  | nil => rfl
  | cons r records ih =>
    rw [List.map_cons, List.flatMap_cons, readBack?, readRow?_slots]
    show (readBack? _ _ _).map _ = _
    rw [ih]
    rfl

end Reading

section Columns
variable {columns : List (String × Name)}
  (hcolumns : ∀ column ∈ columns, Name.parse column.1 = .ok column.2)
include hcolumns

/-- Under the names of the columns, a record has the cells that it has under its keys. -/
theorem forall₂_labelled (r : Record) :
    List.Forall₂ (fun entry cell => Name.parse entry.1 = .ok cell.1 ∧ cell.2 = entry.2)
      (labelled Prod.fst columns r) (labelled Prod.snd columns r) := by
  induction columns with
  | nil => exact .nil
  | cons column columns ih =>
    have hfirst := hcolumns column List.mem_cons_self
    have hrest := ih fun c hc => hcolumns c (List.mem_cons_of_mem _ hc)
    unfold labelled at hrest ⊢
    rw [List.filterMap_cons, List.filterMap_cons]
    cases r.get? column.1 with
    | none => exact hrest
    | some value => exact .cons ⟨hfirst, rfl⟩ hrest

end Columns

/-! ### The statement of some records -/

theorem isBlank_slot (r : Record) (key : String) : Sql.isBlank (slot r key) = false := by
  unfold slot
  cases r.get? key <;> rfl

theorem text_slot (r : Record) (key : String) :
    Sql.text (slot r key) = (Slot.ofValue? (r.get? key)).text := by
  unfold slot
  cases r.get? key <;> rfl

theorem text_tuple (q : Insert) (r : Record) :
    Sql.text (q.tuple r) = tupleText (slots q.columns r) := by
  have hsome : ∀ part ∈ q.columns.map fun column => slot r column.1, Sql.isBlank part = false := by
    intro part hpart
    obtain ⟨column, -, rfl⟩ := List.mem_map.mp hpart
    exact isBlank_slot r column.1
  have hjoined : Sql.text (Sql.joined ", " (q.columns.map fun column => slot r column.1)) =
      ", ".intercalate ((slots q.columns r).map Slot.text) := by
    rw [Sql.text_joined hsome, slots, List.map_map, List.map_map]
    simp only [Function.comp_def, text_slot]
  rw [tuple, Sql.text_parenthesized]
  exact congrArg (fun t => "(" ++ t ++ ")") hjoined

theorem text_tuples (q : Insert) :
    Sql.text (Sql.joined ", " (q.records.map q.tuple)) =
      tuplesText (q.records.map (slots q.columns)) := by
  rw [Sql.text_joined, tuplesText, List.map_map, List.map_map]
  · simp only [Function.comp_def, text_tuple]
  · intro part hpart
    obtain ⟨r, -, rfl⟩ := List.mem_map.mp hpart
    rfl

theorem text_nameList (names : List Name) :
    Sql.text (Sql.nameList names) = ", ".intercalate (names.map Name.quoted) := by
  refine (Sql.text_joined_named ", " id (fun _ => []) names).trans ?_
  simp only [Sql.text_nil, String.append_empty, id_eq]

/-- **The text of an addition** is the table of its records. -/
theorem sql_statement {q : Insert} (h : q.columns ≠ []) : (Builder.insert q).statement.sql =
    headText q.table (q.columns.map (·.2)) ++ tuplesText (q.records.map (slots q.columns)) ++
      returningText q.returning q.table := by
  have hsome : q.columns.isEmpty = false := List.isEmpty_eq_false_iff.mpr h
  show Sql.text q.render = _
  unfold render
  rw [hsome, if_neg (by decide)]
  simp only [headText_eq, Sql.text_cons, Sql.text_append, Sql.text_nil, Sql.Piece.text,
    Sql.text_parenthesized, text_nameList, text_tuples, text_returningClause, String.append_empty,
    String.append_assoc]
  rfl

theorem bindings_statement (q : Insert) :
    (Builder.insert q).statement.bindings = q.records.flatMap (cells q.columns) :=
  (Builder.insert q).bindings_statement

/-- Without columns there is no table. -/
theorem statement_of_columns_eq_nil {q : Insert} (h : q.columns = []) :
    (Builder.insert q).statement =
      ⟨defaultText q.table ++ returningText q.returning q.table, []⟩ := by
  have hsql : (Builder.insert q).statement.sql =
      defaultText q.table ++ returningText q.returning q.table := by
    show Sql.text q.render = "INSERT INTO " ++ q.table.quoted ++ " DEFAULT VALUES" ++ _
    unfold render
    rw [h]
    simp only [List.isEmpty_nil, if_true, Sql.text_cons, Sql.text_append, Sql.text_nil,
      Sql.Piece.text, text_returningClause, String.append_empty, String.append_assoc]
  have hbindings : (Builder.insert q).statement.bindings = [] := by
    rw [bindings_statement, h]
    exact List.flatMap_eq_nil_iff.mpr fun _ _ => rfl
  exact congrArg₂ Statement.mk hsql hbindings

theorem even_statement (q : Insert) : (Builder.insert q).statement.Even := by
  refine Sql.even_statement (Builder.plain_render _) fun s hs => ?_
  rw [Builder.fragments_render] at hs
  exact absurd hs List.not_mem_nil

/-! ### Additions of records -/

/-- **A statement is the table of some records,** with the keys, the names and the tuples that are
given. -/
structure Tabulates (table : Name) (returning : Bool) (records : List Record) (keys : List String)
    (names : List Name) (grid : List (List Slot)) (st : Statement) : Prop where
  /-- The keys are those of all the records, in order and each once. -/
  sorted : keys.Pairwise (· < ·)
  mem_keys : ∀ key, key ∈ keys ↔ ∃ r ∈ records, key ∈ r.columns
  /-- The columns are the names that the keys are read as. -/
  columns : List.Forall₂ (fun key name => Name.parse key = .ok name) keys names
  /-- There is one tuple for each record, and in it one slot for each column. -/
  length_grid : grid.length = records.length
  length_row : ∀ row ∈ grid, row.length = names.length
  sql : st.sql = headText table names ++ tuplesText grid ++ returningText returning table
  /-- Every slot stands in the text behind the text in front of it. -/
  stands : ∀ i j slot, slot? grid i j = some slot → ∃ behind,
    st.sql = headText table names ++ textBefore grid i j ++ slot.text ++ behind
  /-- A slot is left to the default exactly when the record lacks the key. -/
  omitted : ∀ i j r key, records[i]? = some r → keys[j]? = some key →
    (slot? grid i j = some .omitted ↔ key ∉ r.columns)
  /-- A value of a record has a marker, and as many values are bound before the value as there are
  markers in front of its own. -/
  bound : ∀ i j r key value, records[i]? = some r → keys[j]? = some key → r.get? key = some value →
    slot? grid i j = some .marker ∧
      st.bindings[Sql.marks (headText table names ++ textBefore grid i j)]? = some value
  /-- There are as many markers as values. -/
  even : st.Even
  /-- The records are read back under their keys. -/
  records_eq : readBack? keys grid st.bindings = some (records.map Record.entries)
  /-- Under the names of the columns, too, they are read back. -/
  rows : ∃ rows, readBack? names grid st.bindings = some rows ∧
    List.Forall₂ (fun r row => List.Forall₂ (fun entry cell =>
      Name.parse entry.1 = .ok cell.1 ∧ cell.2 = entry.2) r.entries row) records rows

section Records
variable {records : List Record} {names : List Name}
  (h : Name.parseAll (keys records) = .ok names)
include h

theorem map_fst_zip_keys : ((keys records).zip names).map (·.1) = keys records :=
  List.map_fst_zip (Nat.le_of_eq (Name.length_of_parseAll h).symm)

theorem map_snd_zip_keys : ((keys records).zip names).map (·.2) = names :=
  List.map_snd_zip (Nat.le_of_eq (Name.length_of_parseAll h))

theorem labelled_zip_keys {r : Record} (hr : r ∈ records) :
    labelled Prod.fst ((keys records).zip names) r = r.entries := by
  have hkeys := filterMap_get? hr
  conv at hkeys => lhs; rw [← map_fst_zip_keys h]
  rw [List.filterMap_map] at hkeys
  exact hkeys

/-- Beside each key stands a name. -/
theorem exists_column {j : ℕ} {key : String} (hkey : (keys records)[j]? = some key) :
    ∃ name, ((keys records).zip names)[j]? = some (key, name) := by
  have hfst : (((keys records).zip names).map (·.1))[j]? = some key := by
    rw [map_fst_zip_keys h, hkey]
  rw [List.getElem?_map] at hfst
  obtain ⟨⟨_, name⟩, hcolumn, rfl⟩ := Option.map_eq_some_iff.mp hfst
  exact ⟨name, hcolumn⟩

/-- The slot of a record for a key. -/
theorem slot?_grid {i j : ℕ} {r : Record} {key : String} (hr : records[i]? = some r)
    (hkey : (keys records)[j]? = some key) :
    slot? (records.map (slots ((keys records).zip names))) i j =
      some (.ofValue? (r.get? key)) := by
  obtain ⟨name, hcolumn⟩ := exists_column h hkey
  rw [slot?, List.getElem?_map, hr]
  show (slots _ r)[j]? = _
  rw [slots, List.getElem?_map, hcolumn]
  rfl

/-- The value of a record for a key is bound behind as many values as there are markers in front of
its slot. -/
theorem getElem?_marks (table : Name) {i j : ℕ} {r : Record} {key : String} {value : Value}
    (hr : records[i]? = some r) (hkey : (keys records)[j]? = some key)
    (hvalue : r.get? key = some value) :
    (records.flatMap (cells ((keys records).zip names)))[Sql.marks (headText table names ++
      textBefore (records.map (slots ((keys records).zip names))) i j)]? = some value := by
  obtain ⟨name, hcolumn⟩ := exists_column h hkey
  rw [Sql.marks_append, marks_headText, Nat.zero_add, marks_textBefore_slots _ hr]
  exact getElem?_flatMap_cells hr hcolumn hvalue

/-- The table of some records is read back as their entries. -/
theorem readBack?_keys :
    readBack? (keys records) (records.map (slots ((keys records).zip names)))
      (records.flatMap (cells ((keys records).zip names))) =
      some (records.map Record.entries) := by
  have hread := readBack?_slots Prod.fst ((keys records).zip names) records
  have hentries : records.map (labelled Prod.fst ((keys records).zip names)) =
      records.map Record.entries :=
    List.map_congr_left fun r hr => labelled_zip_keys h hr
  rwa [map_fst_zip_keys h, hentries] at hread

/-- Under the names of the columns the entries are the same, but for their keys. -/
theorem exists_readBack?_names : ∃ rows,
    readBack? names (records.map (slots ((keys records).zip names)))
      (records.flatMap (cells ((keys records).zip names))) = some rows ∧
    List.Forall₂ (fun r row => List.Forall₂ (fun entry cell =>
      Name.parse entry.1 = .ok cell.1 ∧ cell.2 = entry.2) r.entries row) records rows := by
  have hread := readBack?_slots Prod.snd ((keys records).zip names) records
  have hcolumns : ∀ column ∈ (keys records).zip names, Name.parse column.1 = .ok column.2 :=
    fun column hcolumn =>
      (List.forall₂_iff_zip.mp (Name.forall₂_of_parseAll h)).2 hcolumn
  rw [map_snd_zip_keys h] at hread
  refine ⟨_, hread, ?_⟩
  rw [List.forall₂_map_right_iff, List.forall₂_same]
  intro r hr
  have hcells := forall₂_labelled hcolumns r
  rwa [labelled_zip_keys h hr] at hcells

/-- **The statement that adds some records is their table.** -/
theorem tabulates (table : Name) (returning : Bool) (hne : keys records ≠ []) :
    Tabulates table returning records (keys records) names
      (records.map (slots ((keys records).zip names)))
      (Builder.insert ⟨table, (keys records).zip names, records, returning⟩).statement := by
  have hsome : (keys records).zip names ≠ [] := by
    intro hnil
    have hkeys := map_fst_zip_keys h
    rw [hnil] at hkeys
    exact hne hkeys.symm
  have hsql : (Builder.insert ⟨table, (keys records).zip names, records, returning⟩).statement.sql =
      headText table names ++ tuplesText (records.map (slots ((keys records).zip names))) ++
        returningText returning table := by
    rw [sql_statement hsome, map_snd_zip_keys h]
  have hbindings := bindings_statement ⟨table, (keys records).zip names, records, returning⟩
  constructor
  case sorted => exact sorted_keys records
  case mem_keys => exact fun key => mem_keys
  case columns => exact Name.forall₂_of_parseAll h
  case length_grid => exact List.length_map _
  case length_row =>
    intro row hrow
    obtain ⟨r, -, rfl⟩ := List.mem_map.mp hrow
    rw [slots, List.length_map, List.length_zip, Name.length_of_parseAll h, Nat.min_self]
  case sql => exact hsql
  case stands =>
    intro i j slot hslot
    obtain ⟨behind, hbehind⟩ := exists_tuplesText_eq hslot
    refine ⟨behind ++ returningText returning table, ?_⟩
    rw [hsql, hbehind]
    simp only [String.append_assoc]
  case omitted =>
    intro i j r key hr hkey
    rw [slot?_grid h hr hkey, Option.some.injEq, Slot.ofValue?_eq_omitted, Record.get?_eq_none_iff]
  case bound =>
    intro i j r key value hr hkey hvalue
    have hslot := slot?_grid h hr hkey
    rw [hvalue] at hslot
    refine ⟨hslot, ?_⟩
    rw [hbindings]
    exact getElem?_marks h table hr hkey hvalue
  case even => exact even_statement _
  case records_eq =>
    rw [hbindings]
    exact readBack?_keys h
  case rows =>
    rw [hbindings]
    exact exists_readBack?_names h

end Records

/-! ### Without columns -/

theorem keys_eq_nil_iff {records : List Record} :
    keys records = [] ↔ ∀ r ∈ records, r.entries = [] := by
  rw [List.eq_nil_iff_forall_not_mem]
  constructor
  · intro hkeys r hr
    rw [List.eq_nil_iff_forall_not_mem]
    intro e he
    exact hkeys e.1 (mem_keys_of_mem hr he)
  · intro hempty key hkey
    obtain ⟨r, hr, hcolumn⟩ := mem_keys.mp hkey
    rw [Record.columns, hempty r hr] at hcolumn
    exact absurd hcolumn List.not_mem_nil

/-- An addition is left without columns exactly when its records are empty. -/
theorem withRecords_eq_nil_iff (q : Insert) (records : List Record) :
    q.withRecords records = .ok { q with columns := [], records } ↔
      ∀ r ∈ records, r.entries = [] := by
  rw [Request.withRecords_eq, ← keys_eq_nil_iff]
  constructor
  · intro h
    obtain ⟨names, hnames, h⟩ := bind_eq_ok.mp h
    have hcolumns := congrArg Insert.columns (Except.ok.inj h)
    rw [← map_fst_zip_keys hnames]
    exact congrArg (List.map (·.1)) hcolumns
  · intro hkeys
    rw [hkeys]
    rfl

/-- Without columns there is a statement only for a single record. -/
theorem statement_eq_ok_of_columns_eq_nil {q : Insert} (h : q.columns = []) (st : Statement) :
    q.statement = .ok st ↔ q.records.length = 1 ∧
      st = ⟨defaultText q.table ++ returningText q.returning q.table, []⟩ := by
  have hfault : q.fault? = none ↔ q.records.length = 1 := by
    unfold fault?
    rw [h]
    cases q.records with
    | nil => simp
    | cons r records =>
      cases records with
      | nil => simp
      | cons next records => simp
  rw [statement_eq_ok, hfault, statement_of_columns_eq_nil h]

theorem statement_of_records_eq_nil {q : Insert} (h : q.records = []) :
    q.statement = .error (.validation "InsertQb: no records to insert") := by
  unfold statement fault?
  rw [h]
  rfl

/-! ### The statement of all the records -/

theorem fault?_eq_none {q : Insert} (hrecords : q.records ≠ []) (hcolumns : q.columns ≠ []) :
    q.fault? = none := by
  have hsome : q.records.isEmpty = false := List.isEmpty_eq_false_iff.mpr hrecords
  have hwide : q.columns.isEmpty = false := List.isEmpty_eq_false_iff.mpr hcolumns
  unfold fault?
  rw [hsome, hwide]
  simp

/-- **No cell is lost, moved or doubled.** Records whose keys are names give the statement that is
their table, unless all of them are empty. Empty records leave no columns, and then there is a
statement, without values, only for a single one. Without records there is none. -/
theorem statement_withRecords (q : Insert) (records : List Record) :
    ((∀ r ∈ records, ∀ key ∈ r.columns, ∃ name, Name.parse key = .ok name) →
      (∃ r ∈ records, r.entries ≠ []) →
      ∃ q' st keys names grid, q.withRecords records = .ok q' ∧ q'.statement = .ok st ∧
        Tabulates q.table q.returning records keys names grid st) ∧
    (q.withRecords records = .ok { q with columns := [], records } ↔
      ∀ r ∈ records, r.entries = []) ∧
    (q.columns = [] → ∀ st, q.statement = .ok st ↔ q.records.length = 1 ∧
      st = ⟨defaultText q.table ++ returningText q.returning q.table, []⟩) ∧
    (q.records = [] → q.statement = .error (.validation "InsertQb: no records to insert")) := by
  refine ⟨fun hvalid hsome => ?_, withRecords_eq_nil_iff q records,
    statement_eq_ok_of_columns_eq_nil, statement_of_records_eq_nil⟩
  have hparse : ∀ key ∈ keys records, ∃ name, Name.parse key = .ok name := by
    intro key hkey
    obtain ⟨r, hr, hcolumn⟩ := mem_keys.mp hkey
    exact hvalid r hr key hcolumn
  obtain ⟨names, hnames⟩ := Name.exists_parseAll hparse
  have hne : keys records ≠ [] := by
    intro hnil
    obtain ⟨r, hr, hentries⟩ := hsome
    exact hentries (keys_eq_nil_iff.mp hnil r hr)
  have hcolumns : (keys records).zip names ≠ [] := by
    intro hnil
    rw [← map_fst_zip_keys hnames, hnil] at hne
    exact hne rfl
  have hrecords : records ≠ [] := by
    obtain ⟨r, hr, -⟩ := hsome
    exact List.ne_nil_of_mem hr
  have hfault : (Insert.mk q.table ((keys records).zip names) records q.returning).fault? = none :=
    fault?_eq_none hrecords hcolumns
  refine ⟨_, _, _, _, _, ?_, statement_eq_ok.mpr ⟨hfault, rfl⟩,
    tabulates hnames q.table q.returning hne⟩
  rw [Request.withRecords_eq, hnames]
  rfl

/-- Records that lack different keys, one of them every key. -/
def raggedRecords : List Record :=
  [.ofList [("b", .bool true)], .empty, .ofList [("\"a.b\"", .null), ("b", .bool false)],
    .ofList [("\"a.b\"", .bool true)]]

/-- The table that they are added to. -/
def raggedTable : Name :=
  ⟨["items"], by simp, by simp [ProperPart]⟩

theorem statement_withRecords_raggedRecords :
    (∃ q' st keys names grid, (ofTable raggedTable).withRecords raggedRecords = .ok q' ∧
      q'.statement = .ok st ∧ Tabulates raggedTable false raggedRecords keys names grid st ∧
      st = ⟨"INSERT INTO \"items\" (\"a.b\", \"b\") VALUES " ++
        "(DEFAULT, ?), (DEFAULT, DEFAULT), (?, ?), (?, DEFAULT)",
        [.bool true, .null, .bool false, .bool true]⟩) ∧
      (ofTable raggedTable).withRecords [.empty] = .ok ⟨raggedTable, [], [.empty], false⟩ ∧
      (Insert.mk raggedTable [] [.empty] false).statement =
        .ok ⟨"INSERT INTO \"items\" DEFAULT VALUES", []⟩ ∧
      (ofTable raggedTable).statement =
        .error (.validation "InsertQb: no records to insert") := by
  have hvalid : ∀ r ∈ raggedRecords, ∀ key ∈ r.columns, ∃ name, Name.parse key = .ok name := by
    have hall : (raggedRecords.all fun r => r.columns.all fun key =>
        (Name.parse key).toOption.isSome) = true := by decide +kernel
    intro r hr key hkey
    have hsome := List.all_eq_true.mp (List.all_eq_true.mp hall r hr) key hkey
    cases hparse : Name.parse key with
    | ok name => exact ⟨name, rfl⟩
    | error fault =>
      rw [hparse] at hsome
      cases hsome
  obtain ⟨htable, -, -, hnone⟩ := statement_withRecords (ofTable raggedTable) raggedRecords
  obtain ⟨q', st, keys, names, grid, hq, hst, htabulates⟩ :=
    htable hvalid ⟨_, List.mem_cons_self, by decide⟩
  obtain ⟨-, hempty, -, -⟩ := statement_withRecords (ofTable raggedTable) [.empty]
  obtain ⟨-, -, hsingle, -⟩ := statement_withRecords (Insert.mk raggedTable [] [.empty] false) []
  have hstatement : ((ofTable raggedTable).withRecords raggedRecords >>= statement) =
      .ok ⟨"INSERT INTO \"items\" (\"a.b\", \"b\") VALUES " ++
        "(DEFAULT, ?), (DEFAULT, DEFAULT), (?, ?), (?, DEFAULT)",
        [.bool true, .null, .bool false, .bool true]⟩ := by decide +kernel
  refine ⟨⟨q', st, keys, names, grid, hq, hst, htabulates, ?_⟩, hempty.mpr (by decide), ?_,
    hnone rfl⟩
  · rw [hq] at hstatement
    exact Except.ok.inj (hst.symm.trans hstatement)
  · exact (hsingle rfl _).mpr ⟨rfl, by decide +kernel⟩

end Insert

end Rowset
