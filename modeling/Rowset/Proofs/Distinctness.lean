import Rowset.Proofs.Spelling
import Rowset.Proofs.Tabulation
import Mathlib.Data.List.Nodup

/-!
# Distinct columns

The keys of a record are distinct, and so are those of a batch of records. A name can be spelled in
two ways, though, bare and in quotes, and two keys that spell the same parts become one column:
`Name.Namesakes` holds of such texts.

Distinct texts are read as distinct names exactly when no two of them are namesakes
(`Name.nodup_iff_apart`). This decides whether an addition lists a column twice
(`Insert.nodup_of_withRecords`) and whether a change assigns one twice
(`Update.nodup_of_setRecord`). Among texts without quotes there are no namesakes
(`Name.apart_of_notMem`).
-/

namespace Rowset

namespace Name

/-! ### Namesakes -/

/-- Two texts are namesakes if they spell the same parts. -/
def Namesakes (a b : String) : Prop :=
  ∃ parts, Spelling a.toList parts ∧ Spelling b.toList parts

/-- No two different ones among some texts are namesakes. -/
def Apart (texts : List String) : Prop :=
  ∀ a ∈ texts, ∀ b ∈ texts, Namesakes a b → a = b

theorem Namesakes.symm {a b : String} (h : Namesakes a b) : Namesakes b a := by
  obtain ⟨parts, ha, hb⟩ := h
  exact ⟨parts, hb, ha⟩

/-- A text spells one list of parts. -/
theorem Spelling.unique {text : List Char} {parts others : List (List Char)}
    (h : Spelling text parts) (hothers : Spelling text others) : parts = others := by
  have hparts := (@splitParts_eq_ok_iff "" text parts).mpr h
  have hread := (@splitParts_eq_ok_iff "" text others).mpr hothers
  exact Except.ok.inj (hparts.symm.trans hread)

theorem eq_of_parts {n m : Name} (h : n.parts.map String.toList = m.parts.map String.toList) :
    n = m := by
  have hparts : n.parts = m.parts :=
    List.map_injective_iff.mpr (fun _ _ => String.toList_injective) h
  cases n
  cases m
  cases hparts
  rfl

/-- Texts are namesakes if they are read as the same name. -/
theorem namesakes_iff {a b : String} {n m : Name} (ha : parse a = .ok n) (hb : parse b = .ok m) :
    Namesakes a b ↔ n = m := by
  have hspelled := (parse_eq_ok_iff.mp ha).2.2
  have hspelledb := (parse_eq_ok_iff.mp hb).2.2
  constructor
  · rintro ⟨parts, hparts, hpartsb⟩
    refine eq_of_parts ?_
    rw [hspelled.unique hparts, hspelledb.unique hpartsb]
  · rintro rfl
    exact ⟨_, hspelled, hspelledb⟩

/-! ### Texts without quotes -/

/-- Without quotes, a text is its parts with dots between them. -/
theorem Spelling.eq_intercalate {text : List Char} {parts : List (List Char)}
    (h : Spelling text parts) (hquote : '"' ∉ text) : text = ['.'].intercalate parts := by
  have hbare : ∀ {text part : List Char}, PartSpelling text part → '"' ∉ text → text = part := by
    intro text part hpart hquote
    cases hpart with
    | bare => rfl
    | quoted => exact absurd List.mem_cons_self hquote
  induction h with
  | last hpart =>
    rw [hbare hpart hquote]
    simp
  | @cons text part rest parts hpart hs ih =>
    rw [List.mem_append, List.mem_cons, not_or, not_or] at hquote
    obtain ⟨hfirst, -, hrest⟩ := hquote
    cases parts with
    | nil => cases hs
    | cons next parts =>
      rw [hbare hpart hfirst, ih hrest]
      simp [List.intercalate]

/-- Texts without quotes are apart. -/
theorem apart_of_notMem {texts : List String} (h : ∀ t ∈ texts, '"' ∉ t.toList) : Apart texts := by
  rintro a ha b hb ⟨parts, hparts, hpartsb⟩
  have htext := hparts.eq_intercalate (h a ha)
  have htextb := hpartsb.eq_intercalate (h b hb)
  exact String.toList_injective (htext.trans htextb.symm)

/-! ### The names of distinct texts -/

theorem apart_cons {t : String} {texts : List String} (h : t ∉ texts) :
    Apart (t :: texts) ↔ (∀ b ∈ texts, ¬ Namesakes t b) ∧ Apart texts := by
  constructor
  · intro hapart
    refine ⟨fun b hb hnamesakes => ?_, fun a ha b hb => ?_⟩
    · have heq := hapart t List.mem_cons_self b (List.mem_cons_of_mem t hb) hnamesakes
      exact h (heq ▸ hb)
    · exact hapart a (List.mem_cons_of_mem t ha) b (List.mem_cons_of_mem t hb)
  · rintro ⟨hfirst, hrest⟩ a ha b hb hnamesakes
    rcases List.mem_cons.mp ha with rfl | hmem
    · rcases List.mem_cons.mp hb with rfl | hb
      · rfl
      · exact absurd hnamesakes (hfirst b hb)
    · rcases List.mem_cons.mp hb with rfl | hb
      · exact absurd hnamesakes.symm (hfirst a hmem)
      · exact hrest a hmem b hb hnamesakes

section Names
variable {texts : List String} {names : List Name}
  (h : List.Forall₂ (fun text name => parse text = .ok name) texts names)
include h

/-- A name is among those that are read if a namesake is among the texts. -/
theorem mem_iff_exists_namesakes {t : String} {name : Name} (ht : parse t = .ok name) :
    name ∈ names ↔ ∃ b ∈ texts, Namesakes t b := by
  induction h with
  | nil => simp
  | cons hb _ ih =>
    rw [List.mem_cons, ih, List.exists_mem_cons_iff, namesakes_iff ht hb]

/-- **Distinct texts are read as distinct names exactly when they are apart.** -/
theorem nodup_iff_apart (hnodup : texts.Nodup) : (names.map quoted).Nodup ↔ Apart texts := by
  rw [List.nodup_map_iff quoted_injective]
  induction h with
  | nil => simp [Apart]
  | cons ht hrest ih =>
    obtain ⟨hfirst, hnodup⟩ := List.nodup_cons.mp hnodup
    rw [List.nodup_cons, ih hnodup, mem_iff_exists_namesakes hrest ht, apart_cons hfirst]
    simp only [not_exists, not_and]

end Names

theorem apart_congr {texts others : List String} (h : ∀ t, t ∈ texts ↔ t ∈ others) :
    Apart texts ↔ Apart others := by
  unfold Apart
  simp only [h]

end Name

/-! ### Columns that are written to -/

theorem Record.nodup_columns (r : Record) : r.columns.Nodup :=
  (List.pairwise_map.mpr r.sorted).imp String.ne_of_lt

namespace Insert

/-- The text of an addition up to its tuples; without columns no list of them is written. -/
def openingText (table : Name) (names : List Name) : String :=
  if names.isEmpty then defaultText table else headText table names

theorem apart_keys_iff (records : List Record) :
    Name.Apart (keys records) ↔ Name.Apart (records.flatMap Record.columns) :=
  Name.apart_congr fun key => by rw [mem_keys, List.mem_flatMap]

theorem exists_sql_eq_openingText (q : Insert) : ∃ rest,
    (Builder.insert q).statement.sql = openingText q.table (q.columns.map (·.2)) ++ rest := by
  by_cases h : q.columns = []
  · refine ⟨returningText q.returning q.table, ?_⟩
    rw [statement_of_columns_eq_nil h, h]
    rfl
  · refine ⟨tuplesText (q.records.map (slots q.columns)) ++ returningText q.returning q.table, ?_⟩
    have hnames : (q.columns.map (·.2)).isEmpty = false := by simpa using h
    rw [sql_statement h, openingText, hnames, if_neg (by decide), String.append_assoc]

/-- The columns of an addition are distinct exactly when the keys of its records are apart. -/
theorem nodup_of_withRecords {q q' : Insert} {records : List Record}
    (h : q.withRecords records = .ok q') :
    ∃ names rest, List.Forall₂ (fun key name => Name.parse key = .ok name) (keys records) names ∧
      (Builder.insert q').statement.sql = openingText q.table names ++ rest ∧
      ((names.map Name.quoted).Nodup ↔ Name.Apart (records.flatMap Record.columns)) := by
  rw [Request.withRecords_eq] at h
  obtain ⟨names, hnames, h⟩ := bind_eq_ok.mp h
  cases h
  have hparse := Name.forall₂_of_parseAll hnames
  have hkeys : (keys records).Nodup := (sorted_keys records).imp String.ne_of_lt
  obtain ⟨rest, hrest⟩ := exists_sql_eq_openingText
    ⟨q.table, (keys records).zip names, records, q.returning⟩
  rw [map_snd_zip_keys hnames] at hrest
  refine ⟨names, rest, hparse, hrest, ?_⟩
  rw [Name.nodup_iff_apart hparse hkeys, apart_keys_iff]

end Insert

namespace Update

/-- The text of a change up to its target, in the names of the columns. -/
theorem sql_eq_of_assignments {q : Update} {names : List Name} {values : List Value}
    (h : q.assignments = names.zip values) (hlength : names.length ≤ values.length) :
    (Builder.update q).statement.sql = "UPDATE " ++ q.selection.table.quoted ++ " SET " ++
      ", ".intercalate (names.map fun name => name.quoted ++ " = ?") ++
      (q.selection.target.text ++ returningText q.returning q.selection.table) := by
  have hset : (q.assignments.map fun pair => pair.1.quoted ++ " = ?") =
      names.map fun name => name.quoted ++ " = ?" := by
    conv_rhs => rw [← List.map_fst_zip hlength]
    rw [List.map_map, h]
    rfl
  rw [Builder.sql_update, hset, String.append_assoc]

/-- The columns of a change are distinct exactly when its attributes are apart. -/
theorem nodup_of_setRecord {s : Selection} {attributes : Record} {q : Update}
    (h : (ofSelection s).setRecord attributes = .ok q) :
    ∃ names rest,
      List.Forall₂ (fun key name => Name.parse key = .ok name) attributes.columns names ∧
      (Builder.update q).statement.sql = "UPDATE " ++ s.table.quoted ++ " SET " ++
        ", ".intercalate (names.map fun name => name.quoted ++ " = ?") ++ rest ∧
      ((names.map Name.quoted).Nodup ↔ Name.Apart attributes.columns) := by
  rw [Request.setRecord_eq] at h
  obtain ⟨names, hnames, h⟩ := bind_eq_ok.mp h
  have hassignments : q.assignments = names.zip (attributes.entries.map (·.2)) := by
    cases h
    rfl
  have hselection : q.selection = s := by
    cases h
    rfl
  have hlength : names.length ≤ (attributes.entries.map (·.2)).length := by
    have hcolumns := Name.length_of_parseAll hnames
    rw [Record.columns, List.length_map] at hcolumns
    rw [List.length_map]
    omega
  have hparse := Name.forall₂_of_parseAll hnames
  have hsql := sql_eq_of_assignments hassignments hlength
  rw [hselection] at hsql
  exact ⟨names, _, hparse, hsql, Name.nodup_iff_apart hparse attributes.nodup_columns⟩

end Update

/-- **The columns that a statement writes to are distinct exactly when no two different keys are
namesakes;** keys without quotes never are. -/
theorem nodup_columns_iff_apart (q : Insert) (records : List Record) (s : Selection)
    (attributes : Record) :
    (∀ q', q.withRecords records = .ok q' → ∃ names rest,
      List.Forall₂ (fun key name => Name.parse key = .ok name) (Insert.keys records) names ∧
      (Builder.insert q').statement.sql = Insert.openingText q.table names ++ rest ∧
      ((names.map Name.quoted).Nodup ↔ Name.Apart (records.flatMap Record.columns))) ∧
    (∀ q', (Update.ofSelection s).setRecord attributes = .ok q' → ∃ names rest,
      List.Forall₂ (fun key name => Name.parse key = .ok name) attributes.columns names ∧
      (Builder.update q').statement.sql = "UPDATE " ++ s.table.quoted ++ " SET " ++
        ", ".intercalate (names.map fun name => name.quoted ++ " = ?") ++ rest ∧
      ((names.map Name.quoted).Nodup ↔ Name.Apart attributes.columns)) ∧
    ∀ keys : List String, (∀ key ∈ keys, '"' ∉ key.toList) → Name.Apart keys :=
  ⟨fun _ h => Insert.nodup_of_withRecords h, fun _ h => Update.nodup_of_setRecord h,
    fun _ h => Name.apart_of_notMem h⟩

/-- The table that is written to. -/
def targetName : Name :=
  ⟨["orders"], by simp, by simp [ProperPart]⟩

/-- A name of one part. -/
def letterName : Name :=
  ⟨["a"], by simp, by simp [ProperPart]⟩

/-- A name of two parts. -/
def pathName : Name :=
  ⟨["b", "c"], by simp, by simp [ProperPart]⟩

/-- A record with the two names as keys. -/
def dottedRecord : Record :=
  .ofList [("a", .bool true), ("b.c", .bool false)]

theorem nodup_columns_iff_apart_dottedRecord :
    (∃ q names rest, (Insert.ofTable targetName).withRecords [dottedRecord] = .ok q ∧
      (Builder.insert q).statement.sql = Insert.openingText targetName names ++ rest ∧
      (List.map Name.quoted names).Nodup) ∧
    ∃ q names rest, (Update.ofSelection (.ofTable targetName)).setRecord dottedRecord = .ok q ∧
      (Builder.update q).statement.sql = "UPDATE " ++ targetName.quoted ++ " SET " ++
        ", ".intercalate (List.map (fun name => name.quoted ++ " = ?") names) ++ rest ∧
      (names.map Name.quoted).Nodup := by
  obtain ⟨hinsert, hupdate, hapart⟩ :=
    nodup_columns_iff_apart (.ofTable targetName) [dottedRecord] (.ofTable targetName) dottedRecord
  have hkeys : Name.parseAll (Insert.keys [dottedRecord]) = .ok [letterName, pathName] := by
    decide +kernel
  have hcolumns : Name.parseAll dottedRecord.columns = .ok [letterName, pathName] := by
    decide +kernel
  have hrecords : (Insert.ofTable targetName).withRecords [dottedRecord] =
      .ok ⟨targetName, (Insert.keys [dottedRecord]).zip [letterName, pathName], [dottedRecord],
        false⟩ := by
    rw [Request.withRecords_eq, hkeys]
    rfl
  have hrecord : (Update.ofSelection (.ofTable targetName)).setRecord dottedRecord =
      .ok ⟨.ofTable targetName, [letterName, pathName].zip (dottedRecord.entries.map (·.2)),
        false⟩ := by
    rw [Request.setRecord_eq, hcolumns]
    rfl
  have hbare : Name.Apart dottedRecord.columns := hapart _ (by decide)
  constructor
  · obtain ⟨names, rest, -, hsql, hiff⟩ := hinsert _ hrecords
    rw [List.flatMap_singleton] at hiff
    exact ⟨_, names, rest, hrecords, hsql, hiff.mpr hbare⟩
  · obtain ⟨names, rest, -, hsql, hiff⟩ := hupdate _ hrecord
    exact ⟨_, names, rest, hrecord, hsql, hiff.mpr hbare⟩

/-- A batch in which one name is spelled in two ways. -/
def doubledRecords : List Record :=
  [.ofList [("a", .bool true)], .ofList [("\"a\"", .bool false)]]

/-- A record in which one name is spelled in two ways. -/
def doubledRecord : Record :=
  .ofList [("a", .bool true), ("\"a\"", .bool false)]

/-- The two spellings of a name become two columns of that name. -/
theorem not_nodup_doubledRecords :
    (∃ q, (Insert.ofTable targetName).withRecords doubledRecords = .ok q ∧
      q.statement = .ok ⟨"INSERT INTO \"orders\" (\"a\", \"a\") VALUES (DEFAULT, ?), (?, DEFAULT)",
        [.bool true, .bool false]⟩ ∧ ¬ (q.columns.map (·.2.quoted)).Nodup) ∧
    ∃ q, (Update.ofSelection (.ofTable targetName)).setRecord doubledRecord = .ok q ∧
      q.statement = .ok ⟨"UPDATE \"orders\" SET \"a\" = ?, \"a\" = ?",
        [.bool false, .bool true]⟩ ∧ ¬ (q.assignments.map (·.1.quoted)).Nodup := by
  have hkeys : Name.parseAll (Insert.keys doubledRecords) = .ok [letterName, letterName] := by
    decide +kernel
  have hcolumns : Name.parseAll doubledRecord.columns = .ok [letterName, letterName] := by
    decide +kernel
  refine ⟨⟨_, by rw [Request.withRecords_eq, hkeys]; rfl, by decide +kernel, by decide +kernel⟩, ?_⟩
  exact ⟨_, by rw [Request.setRecord_eq, hcolumns]; rfl, by decide +kernel, by decide +kernel⟩

end Rowset
