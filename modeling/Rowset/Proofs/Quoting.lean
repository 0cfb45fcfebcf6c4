import Rowset.Proofs.Planning

/-!
# Reading quoted names

A text is read by the rule for quoted names: a double quote opens a name, a doubled one inside
stands for one, and a single one closes it (`Sql.lexemes?`). The reader is one pass over the text
and knows nothing of pieces.

On a statement without fragments it finds the pieces again (`Sql.lexemes?_text`): every name in its
parts, and between them the words and markers. A closing quote cannot run into a quote behind it,
since no piece touches the next one. The names are those that the texts of the request are read as,
in the order in which they are written (`Request.Builds.names`).
-/

namespace Rowset

namespace Sql

/-! ### The reader -/

/-- A character outside of quotes, or a quoted name as it reads without its quotes. -/
inductive Lexeme where
  | plain (c : Char)
  | name (text : String)
  deriving DecidableEq

/-- Where a reader of quoted names stands. -/
inductive Place where
  | outside
  /-- In a name, of which some has been read. -/
  | inside (read : List Char)
  /-- Right behind a quote in a name. -/
  | behind (read : List Char)

/-- **Reads quoted names,** if every quote is closed. -/
def lexemes? : Place → List Char → Option (List Lexeme)
  | .outside, [] => some []
  | .inside _, [] => none
  | .behind read, [] => some [.name (String.ofList read)]
  | .outside, c :: cs =>
    if c = '"' then lexemes? (.inside []) cs else (lexemes? .outside cs).map (.plain c :: ·)
  | .inside read, c :: cs =>
    if c = '"' then lexemes? (.behind read) cs else lexemes? (.inside (read ++ [c])) cs
  | .behind read, c :: cs =>
    if c = '"' then lexemes? (.inside (read ++ ['"'])) cs
    else (lexemes? .outside cs).map fun lexemes =>
      .name (String.ofList read) :: .plain c :: lexemes

/-- The names among some lexemes. -/
def namesRead (lexemes : List Lexeme) : List String :=
  lexemes.filterMap fun
    | .plain _ => none
    | .name text => some text

/-- What stands outside of the names, which leave gaps. -/
def outside (lexemes : List Lexeme) : List (Option Char) :=
  lexemes.map fun
    | .plain c => some c
    | .name _ => none

theorem lexemes?_part (part : List Char) {rest : List Char} (h : rest.head? ≠ some '"')
    (read : List Char) :
    lexemes? (.inside read)
        (part.flatMap (fun c => if c = '"' then ['"', '"'] else [c]) ++ '"' :: rest) =
      (lexemes? .outside rest).map (.name (String.ofList (read ++ part)) :: ·) := by
  induction part generalizing read with
  | nil =>
    rw [List.append_nil]
    cases rest with
    | nil => rfl
    | cons c rest =>
      have hc : c ≠ '"' := fun heq => h (congrArg some heq)
      show lexemes? (.behind read) (c :: rest) = _
      simp only [lexemes?, if_neg hc, Option.map_map]
      rfl
  | cons c cs ih =>
    rw [List.flatMap_cons, List.append_assoc]
    by_cases hc : c = '"'
    · subst hc
      refine (ih (read ++ ['"'])).trans ?_
      rw [List.append_assoc, List.singleton_append]
    · rw [if_neg hc, List.singleton_append, lexemes?, if_neg hc, ih, List.append_assoc,
        List.singleton_append]

theorem lexemes?_plain {cs : List Char} (h : '"' ∉ cs) (rest : List Char) :
    lexemes? .outside (cs ++ rest) = (lexemes? .outside rest).map (cs.map .plain ++ ·) := by
  induction cs with
  | nil => simp
  | cons c cs ih =>
    rw [List.mem_cons, not_or] at h
    rw [List.cons_append, lexemes?, if_neg (Ne.symm h.1), ih h.2, Option.map_map]
    rfl

end Sql

/-- The lexemes of a name: its parts, with dots between them. -/
def Name.lexemes (name : Name) : List Sql.Lexeme :=
  (name.parts.map .name).intersperse (.plain '.')

namespace Sql

theorem lexemes?_quoted (name : Name) {rest : List Char} (h : rest.head? ≠ some '"') :
    lexemes? .outside (name.quoted.toList ++ rest) =
      (lexemes? .outside rest).map (name.lexemes ++ ·) := by
  have hall : ∀ parts : List String, parts ≠ [] →
      lexemes? .outside ((String.intercalate "." (parts.map Name.quotePart)).toList ++ rest) =
        (lexemes? .outside rest).map ((parts.map Lexeme.name).intersperse (.plain '.') ++ ·) := by
    intro parts
    induction parts with
    | nil => exact fun hne => absurd rfl hne
    | cons part parts ih =>
      intro _
      cases parts with
      | nil =>
        rw [List.map_singleton, String.intercalate_singleton, toList_quotePart]
        show lexemes? (.inside []) _ = _
        rw [lexemes?_part part.toList h, List.nil_append, String.ofList_toList]
        rfl
      | cons next parts =>
        have hdots : ".".toList = ['.'] := rfl
        rw [List.map_cons, List.map_cons, String.intercalate_cons_cons, String.toList_append,
          String.toList_append, List.append_assoc, List.append_assoc, hdots, toList_quotePart]
        show lexemes? (.inside []) _ = _
        rw [lexemes?_part part.toList (by simp), List.nil_append, String.ofList_toList,
          List.singleton_append, lexemes?, if_neg (by decide), ← List.map_cons,
          ih (List.cons_ne_nil _ _), Option.map_map, Option.map_map]
        rfl
  exact hall name.parts name.parts_ne_nil

/-- The lexemes of a piece. -/
def Piece.lexemes : Piece → List Lexeme
  | .words t => t.toList.map .plain
  | .name n => n.lexemes
  | .marker _ => [.plain '?']
  | .fragment t _ => t.toList.map .plain

/-- **In a statement without fragments the reader finds the pieces again.** -/
theorem lexemes?_text : ∀ {pieces : List Piece}, Tidy pieces → fragments pieces = [] →
    lexemes? .outside (text pieces).toList = some (pieces.flatMap Piece.lexemes)
  | [], _, _ => rfl
  | .words t :: pieces, h, hf => by
    have hquote : '"' ∉ t.toList := notMem_of_isSpelled h.1 (by decide)
    rw [text_cons, String.toList_append, Piece.text, lexemes?_plain hquote,
      lexemes?_text h.2.2 hf]
    rfl
  | .name name :: pieces, h, hf => by
    have hapart := startsApart_of_tidy h (endsApart_quoted name)
    have hquote : (text pieces).toList.head? ≠ some '"' := by
      intro heq
      rw [startsApart, heq] at hapart
      exact absurd hapart (by decide)
    rw [text_cons, String.toList_append, Piece.text, lexemes?_quoted name hquote,
      lexemes?_text h.2.2 hf]
    rfl
  | .marker value :: pieces, h, hf => by
    have hmarker : "?".toList = ['?'] := rfl
    rw [text_cons, String.toList_append, Piece.text, hmarker,
      lexemes?_plain (by decide), lexemes?_text h.2.2 hf]
    rfl
  | .fragment .. :: _, _, hf => by cases hf

/-! ### Names -/

/-- The names among some pieces. -/
def names (pieces : List Piece) : List Name :=
  pieces.filterMap fun
    | .name name => some name
    | _ => none

theorem names_append (a b : List Piece) : names (a ++ b) = names a ++ names b :=
  List.filterMap_append

theorem names_contents : ∀ pieces : List Piece, names (contents pieces) = names pieces
  | [] => rfl
  | .words _ :: pieces => names_contents pieces
  | .name name :: pieces => congrArg (name :: ·) (names_contents pieces)
  | .marker _ :: pieces => names_contents pieces
  | .fragment .. :: pieces => names_contents pieces

theorem namesRead_append (a b : List Lexeme) : namesRead (a ++ b) = namesRead a ++ namesRead b :=
  List.filterMap_append

theorem namesRead_plain (cs : List Char) : namesRead (cs.map .plain) = [] := by
  simp [namesRead]

theorem namesRead_name (name : Name) : namesRead name.lexemes = name.parts := by
  have hall : ∀ parts : List String,
      namesRead ((parts.map Lexeme.name).intersperse (.plain '.')) = parts := by
    intro parts
    induction parts with
    | nil => rfl
    | cons part parts ih =>
      cases parts with
      | nil => rfl
      | cons next parts => exact congrArg (part :: ·) ih
  exact hall name.parts

/-- The names that are read are the parts of the names among the pieces. -/
theorem namesRead_flatMap : ∀ pieces : List Piece,
    namesRead (pieces.flatMap Piece.lexemes) = (names pieces).flatMap Name.parts
  | [] => rfl
  | piece :: pieces => by
    have ih := namesRead_flatMap pieces
    rw [List.flatMap_cons, namesRead_append, ih]
    cases piece with
    | name n =>
      rw [Piece.lexemes, namesRead_name]
      rfl
    | words t | fragment t bindings =>
      rw [Piece.lexemes, namesRead_plain]
      rfl
    | marker value => rfl

theorem names_cons_name (name : Name) (pieces : List Piece) :
    names (.name name :: pieces) = name :: names pieces := rfl

theorem names_flatMap {α : Type} (f : α → List Piece) (xs : List α) :
    names (xs.flatMap f) = xs.flatMap fun x => names (f x) := by
  induction xs with
  | nil => rfl
  | cons x xs ih => rw [List.flatMap_cons, names_append, ih, List.flatMap_cons]

theorem names_map {α : Type} (f : α → Name) (xs : List α) :
    names (xs.map fun x => .name (f x)) = xs.map f := by
  rw [List.map_eq_flatMap, names_flatMap, List.map_eq_flatMap]
  rfl

theorem names_markers (values : List Value) : names (values.map .marker) = [] := by
  rw [List.map_eq_flatMap, names_flatMap]
  exact List.flatMap_eq_nil_iff.mpr fun _ _ => rfl

end Sql

/-! ### The texts that are read as names -/

/-- The names in a condition. -/
def Condition.names (c : Condition) : List Name :=
  Sql.names c.contents

namespace Filter

mutual

/-- **The columns of a filter that are written,** in text order: a disjunction that restricts
nothing is not written, nor is the column of a test against no values. -/
def columns : Filter → List String
  | .properties record => record.columns
  | .all members => memberColumns members
  | .any members =>
    if members.isEmpty || hasTrivial members then [] else memberColumns members
  | .not inner => inner.columns
  | .oneOf column values => if values.isEmpty then [] else [column]
  | .noneOf column values => if values.isEmpty then [] else [column]
  | .missing column => [column]
  | .present column => [column]
  | .between column _ _ => [column]
  | .outside column _ _ => [column]
  | .bounded _ column _ => [column]
  | .fragment _ _ => []
  | .deferred _ (.ok f) => f.columns
  | .deferred _ (.error _) => []

/-- The columns of some filters that are written. -/
def memberColumns : List Filter → List String
  | [] => []
  | member :: members => member.columns ++ memberColumns members

end

theorem names_equals (name : Name) (value : Value) :
    (Condition.equals name value).names = [name] := by
  cases value <;> rfl

theorem names_memberOf (name : Name) (value : Value) (values : List Value) (negated : Bool) :
    (Condition.memberOf name (value :: values) negated).names = [name] := by
  rw [Condition.names, Condition.contents, if_neg (by simp), Sql.names_cons_name,
    Sql.names_markers]

theorem names_all (members : List Condition) :
    (Condition.all members).names = members.flatMap Condition.names := by
  rw [Condition.names, Condition.contents, Condition.memberContents_eq_flatMap, Sql.names_flatMap]
  rfl

theorem names_any (members : List Condition) :
    (Condition.any members).names = members.flatMap Condition.names :=
  names_all members

theorem names_collapse {ds : List Condition} (h : ∀ d ∈ ds, d.isEmpty = false) :
    (collapse ds).toList.flatMap Condition.names = ds.flatMap Condition.names :=
  flatMap_collapse names_all h

/-- The column of a test is written unless the test is settled. -/
theorem parseAll_of_test? {f : Filter} {column : String} {test : Name → Condition}
    (h : f.test? = some (column, test)) {name : Name} (hname : Name.parse column = .ok name) :
    Name.parseAll f.columns = .ok (test name).names := by
  cases f <;> cases h
  case oneOf values =>
    cases values with
    | nil => rfl
    | cons value values =>
      show _ = Except.ok (Condition.memberOf name (value :: values) false).names
      rw [names_memberOf]
      exact Name.parseAll_singleton hname
  case noneOf values =>
    cases values with
    | nil => rfl
    | cons value values =>
      show _ = Except.ok (Condition.memberOf name (value :: values) true).names
      rw [names_memberOf]
      exact Name.parseAll_singleton hname
  all_goals exact Name.parseAll_singleton hname

mutual

/-- **The columns of a filter are read as the names in its conditions.** -/
theorem Adds.names : ∀ {f : Filter} {cs : List Condition}, Adds f cs →
    Name.parseAll f.columns = .ok (cs.flatMap Condition.names)
  | _, _, .properties h => by
    have hlength := Name.length_of_parseAll h
    rw [Record.columns, List.length_map] at hlength
    rw [columns, h, List.flatMap_map]
    simp only [names_equals]
    rw [← List.map_eq_flatMap, List.map_fst_zip (by omega)]
  | _, _, .all h => by
    rw [columns]
    exact h.names
  | _, _, .anyOpen _ h hnone => by
    have hopen := h.eq_nil_iff.mp ((collapse_eq_none_iff h.live).mp hnone)
    rw [columns, hasTrivial_append, hasTrivial, hopen]
    simp [Name.parseAll_nil]
  | _, _, .anyNone => rfl
  | _, _, @Adds.any members _ _ h => by
    have hopen : hasTrivial members = false :=
      Bool.eq_false_iff.mpr fun ht => by simpa using h.hasTrivial_iff.mpr ht
    have hne : members.isEmpty = false := by
      cases members with
      | nil => cases h
      | cons => rfl
    have ih := h.names
    rw [reduceOption_map_some] at ih
    rw [columns, hne, hopen, if_neg (by decide), ih, List.flatMap_singleton, names_any]
  | _, _, .notNever h hnone => by
    have hnil := (collapse_eq_none_iff h.live).mp hnone
    subst hnil
    exact h.names
  | _, _, .not h hsome => by
    have ih := h.names
    rw [← names_collapse h.live, hsome] at ih
    exact ih
  | _, _, .test htest h => by
    rw [List.flatMap_singleton]
    exact parseAll_of_test? htest h
  | _, _, .fragment => rfl
  | _, _, .deferred h => by
    rw [columns]
    exact h.names

theorem AddsEach.names : ∀ {members : List Filter} {parts : List (Option Condition)},
    AddsEach members parts →
      Name.parseAll (memberColumns members) = .ok (parts.reduceOption.flatMap Condition.names)
  | _, _, .nil => rfl
  | _, _, .cons h hs => by
    rw [memberColumns, flatMap_reduceOption_cons, names_collapse h.live]
    exact Name.parseAll_append h.names hs.names

end

end Filter

namespace Scope

/-- Holds of the scopes that do not take all the rows that their filter means. -/
def isLimited (scope : Scope) : Bool :=
  scope.limit.isSome || scope.skip.isSome

/-- The columns of the filter that are written. -/
def columns (scope : Scope) : List String :=
  scope.wholeFilter.columns

/-- The table again, if the rows are found in a sub-select. -/
def targetTexts (scope : Scope) : List String :=
  if scope.isLimited then [scope.table] else []

/-- The columns of the sort keys. -/
def sortColumns (scope : Scope) : List String :=
  scope.order.map (·.column)

section Selects
variable {scope : Scope} {s : Selection} (h : scope.Selects s)
include h

theorem isLimited_of_selects : s.isLimited = scope.isLimited := by
  rw [Selection.isLimited, isLimited, h.limit, h.offset]

theorem names_contents : Name.parseAll scope.columns = .ok (Sql.names s.contents) := by
  rw [Selection.contents, Condition.memberContents_eq_flatMap, Sql.names_flatMap]
  exact h.adds.names

theorem names_targetContents :
    Name.parseAll (scope.targetTexts ++ scope.columns) = .ok (Sql.names s.targetContents) := by
  unfold targetTexts Selection.targetContents
  rw [isLimited_of_selects h, Sql.names_append]
  refine Name.parseAll_append ?_ (names_contents h)
  split_ifs
  · exact Name.parseAll_singleton h.table
  · rfl

end Selects

end Scope

namespace Request

/-- **The texts of a request that are read as names,** in the order in which the names are written.
A count gives names to what it counts. -/
def identifiers : Request → List String
  | .query scope => scope.table :: scope.columns ++ scope.sortColumns
  | .count scope =>
    "count" :: scope.table :: scope.columns ++ if scope.isLimited then ["t"] else []
  | .select scope columns => columns ++ scope.table :: scope.columns ++ scope.sortColumns
  | .updateAll scope attributes =>
    scope.table :: attributes.columns ++ (scope.targetTexts ++ scope.columns) ++ [scope.table]
  | .deleteAll scope => scope.table :: (scope.targetTexts ++ scope.columns) ++ [scope.table]
  | .insertAll table records _ => table :: Insert.keys records ++ [table]
  | .execute _ => []

section Contents
variable {scope : Scope} {s : Selection} (h : scope.Selects s)
include h

theorem names_selectContents {columns : List String} {names order : List Name}
    (hnames : Name.parseAll columns = .ok names)
    (horder : Name.parseAll scope.sortColumns = .ok order) :
    Name.parseAll (columns ++ scope.table :: scope.columns ++ scope.sortColumns) = .ok (Sql.names
      (Select.mk s names (order.zip (scope.order.map (·.direction)))).contents) := by
  have hlength := Name.length_of_parseAll horder
  rw [Scope.sortColumns, List.length_map] at hlength
  have hzip : (order.zip (scope.order.map (·.direction))).map (·.1) = order :=
    List.map_fst_zip (by rw [hlength, List.length_map])
  rw [Select.contents, Sql.names_append, Sql.names_append, Sql.names_cons_name, Sql.names_map,
    Sql.names_map, List.map_id', hzip]
  exact Name.parseAll_append (Name.parseAll_append hnames
    (Name.parseAll_cons.mpr ⟨_, _, h.table, Scope.names_contents h, rfl⟩)) horder

theorem names_countContents :
    Name.parseAll (identifiers (.count scope)) =
      .ok (Sql.names (Select.ofSelection s).countContents) := by
  have hcount : Name.parse "count" = .ok Sql.countName := by decide +kernel
  have hnested : Name.parse "t" = .ok Sql.nestedName := by decide +kernel
  rw [Select.countContents, Sql.names_append, Sql.names_cons_name, Sql.names_cons_name, identifiers,
    Select.ofSelection, ← Scope.isLimited_of_selects h]
  refine Name.parseAll_append (Name.parseAll_cons.mpr ⟨_, _, hcount,
    Name.parseAll_cons.mpr ⟨_, _, h.table, Scope.names_contents h, rfl⟩, rfl⟩) ?_
  split_ifs
  · exact Name.parseAll_singleton hnested
  · rfl

theorem names_updateContents {attributes : Record} {names : List Name}
    (hnames : Name.parseAll attributes.columns = .ok names) :
    Name.parseAll (identifiers (.updateAll scope attributes)) = .ok (Sql.names
      (Update.mk s (names.zip (attributes.entries.map (·.2))) true).contents) := by
  have hlength := Name.length_of_parseAll hnames
  rw [Record.columns, List.length_map] at hlength
  have hzip : (names.zip (attributes.entries.map (·.2))).flatMap
      (fun pair => Sql.names [.name pair.1, .marker pair.2]) = names := by
    show (names.zip (attributes.entries.map (·.2))).flatMap (fun pair => [pair.1]) = names
    rw [← List.map_eq_flatMap]
    exact List.map_fst_zip (by rw [hlength, List.length_map])
  rw [Update.contents, Sql.names_append, Sql.names_append, Sql.names_cons_name, Sql.names_flatMap,
    hzip]
  exact Name.parseAll_append (Name.parseAll_append
    (Name.parseAll_cons.mpr ⟨_, _, h.table, hnames, rfl⟩) (Scope.names_targetContents h))
    (Name.parseAll_singleton h.table)

theorem names_deleteContents :
    Name.parseAll (identifiers (.deleteAll scope)) =
      .ok (Sql.names (Delete.mk s true).contents) := by
  rw [Delete.contents, Sql.names_append, Sql.names_cons_name]
  exact Name.parseAll_append
    (Name.parseAll_cons.mpr ⟨_, _, h.table, Scope.names_targetContents h, rfl⟩)
    (Name.parseAll_singleton h.table)

end Contents

theorem names_insertContents {table : String} {records : List Record}
    {keys : List (String × KeyKind)} {name : Name} {names : List Name}
    (htable : Name.parse table = .ok name)
    (hnames : Name.parseAll (Insert.keys records) = .ok names) :
    Name.parseAll (identifiers (.insertAll table records keys)) = .ok (Sql.names
      (Insert.mk name ((Insert.keys records).zip names) records true).contents) := by
  have hlength := Name.length_of_parseAll hnames
  have hzip : ((Insert.keys records).zip names).map (·.2) = names :=
    List.map_snd_zip (by omega)
  have hcells : Sql.names (records.flatMap fun r => ((Insert.keys records).zip names).flatMap
      fun column => (r.get? column.1).toList.map .marker) = [] := by
    rw [Sql.names_flatMap]
    refine List.flatMap_eq_nil_iff.mpr fun r _ => ?_
    rw [Sql.names_flatMap]
    exact List.flatMap_eq_nil_iff.mpr fun column _ => Sql.names_markers _
  rw [Insert.contents, Sql.names_append, Sql.names_append, Sql.names_cons_name, Sql.names_map, hzip,
    hcells, List.append_nil]
  exact Name.parseAll_append (Name.parseAll_cons.mpr ⟨_, _, htable, hnames, rfl⟩)
    (Name.parseAll_singleton htable)

/-- **The names in what is built are those that the texts of the request are read as.** -/
theorem Builds.names {r : Request} {b : Builder} (h : r.Builds b) :
    Name.parseAll r.identifiers = .ok (Sql.names b.contents) := by
  cases h with
  | query hs horder =>
    exact names_selectContents (Scope.selects_of_result hs) Name.parseAll_nil horder
  | count hs => exact names_countContents (Scope.selects_of_result hs)
  | select hs hnames horder =>
    exact names_selectContents (Scope.selects_of_result hs) hnames horder
  | updateAll hs hnames => exact names_updateContents (Scope.selects_of_result hs) hnames
  | deleteAll hs => exact names_deleteContents (Scope.selects_of_result hs)
  | insertAll htable hnames => exact names_insertContents htable hnames

end Request

end Rowset
