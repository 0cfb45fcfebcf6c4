import Rowset.Proofs.Quoting

/-!
# The shape of statements

Writing a statement goes by the kinds of its conditions, by how many of them there are and by which
of them are empty, and never by a name or a value. So it commutes with every change of the names and
the values (`Layout.map_render`): the pieces of the changed statement are the changed pieces.

`mask` makes all names of one number of parts alike, and all values. What stands outside of the
quoted names is the same for a statement and for its mask, so it is told by the mask alone; and the
mask is told by the shape of the request (`Request.Builds.mask`): the operators of its filter, how
long lists are, which values of a record are missing ones, how many parts names have, and which
cells are there. So no character of a name gets out of its quotes.
-/

namespace Rowset

/-! ### Pieces -/

namespace Sql

variable (g : Name → Name) (h : Value → Value)

/-- A piece with other names and values. -/
def Piece.map : Piece → Piece
  | .words t => .words t
  | .name n => .name (g n)
  | .marker v => .marker (h v)
  | .fragment t vs => .fragment t (vs.map h)

theorem isBlank_map (pieces : List Piece) :
    isBlank (pieces.map (Piece.map g h)) = isBlank pieces := by
  induction pieces with
  | nil => rfl
  | cons piece pieces ih =>
    rw [List.map_cons, isBlank, isBlank, List.all_cons, List.all_cons]
    rw [isBlank, isBlank] at ih
    rw [ih]
    cases piece with
    | name n =>
      have hname : (Piece.map g h (.name n)).text.isEmpty = (Piece.name n).text.isEmpty :=
        (isEmpty_quoted (g n)).trans (isEmpty_quoted n).symm
      rw [hname]
    | words | marker | fragment => rfl

theorem map_joinAfter (separator : String) (started : Bool) (parts : List (List Piece)) :
    (joinAfter separator started parts).map (Piece.map g h) =
      joinAfter separator started (parts.map (List.map (Piece.map g h))) := by
  induction parts generalizing started with
  | nil => rfl
  | cons part parts ih =>
    rw [List.map_cons, joinAfter, joinAfter, isBlank_map]
    split_ifs
    · rw [List.map_append, ih]
    · rw [List.cons_append, List.map_cons, List.map_append, ih]
      rfl
    · rw [List.map_append, ih]

theorem map_joined (separator : String) (parts : List (List Piece)) :
    (joined separator parts).map (Piece.map g h) =
      joined separator (parts.map (List.map (Piece.map g h))) :=
  map_joinAfter g h separator false parts

theorem map_parenthesized (pieces : List Piece) :
    (parenthesized pieces).map (Piece.map g h) = parenthesized (pieces.map (Piece.map g h)) := by
  simp [parenthesized, Piece.map]

theorem map_nameList (names : List Name) :
    (nameList names).map (Piece.map g h) = nameList (names.map g) := by
  rw [nameList, map_joined, nameList, List.map_map, List.map_map]
  rfl

end Sql

/-! ### Conditions -/

namespace Condition

variable (g : Name → Name) (h : Value → Value)

mutual

/-- A condition with other names and values. -/
def map : Condition → Condition
  | .all members => .all (mapMembers members)
  | .any members => .any (mapMembers members)
  | .not inner => .not inner.map
  | .compare column op value => .compare (g column) op (h value)
  | .null column negated => .null (g column) negated
  | .memberOf column values negated => .memberOf (g column) (values.map h) negated
  | .between column low high negated => .between (g column) (h low) (h high) negated
  | .fragment sql bindings => .fragment sql (bindings.map h)
  | .always => .always
  | .never => .never

/-- Conditions with other names and values. -/
def mapMembers : List Condition → List Condition
  | [] => []
  | member :: members => member.map :: mapMembers members

end

theorem mapMembers_eq_map (members : List Condition) :
    mapMembers g h members = members.map (map g h) := by
  induction members with
  | nil => rfl
  | cons member members ih => rw [mapMembers, List.map_cons, ih]

theorem map_all (members : List Condition) :
    (all members).map g h = .all (members.map (map g h)) :=
  congrArg all (mapMembers_eq_map g h members)

theorem map_any (members : List Condition) :
    (any members).map g h = .any (members.map (map g h)) :=
  congrArg any (mapMembers_eq_map g h members)

mutual

theorem isEmpty_map : ∀ c : Condition, (c.map g h).isEmpty = c.isEmpty
  | .all members => by rw [map, isEmpty, isEmpty, areEmpty_map members]
  | .any members => by rw [map, isEmpty, isEmpty, areEmpty_map members]
  | .not inner => by rw [map, isEmpty, isEmpty, isEmpty_map inner]
  | .compare .. | .null .. | .memberOf .. | .between .. | .fragment .. | .always | .never => rfl

theorem areEmpty_map : ∀ members : List Condition,
    areEmpty (mapMembers g h members) = areEmpty members
  | [] => rfl
  | member :: members => by
    rw [mapMembers, areEmpty, areEmpty, isEmpty_map member, areEmpty_map members]

end

theorem contentCount_map (members : List Condition) :
    contentCount (mapMembers g h members) = contentCount members := by
  rw [mapMembers_eq_map, contentCount, contentCount, List.countP_map]
  simp only [Function.comp_def, isEmpty_map]

theorem isCompound_map (c : Condition) : (c.map g h).isCompound = c.isCompound := by
  cases c with
  | all members | any members => rw [map, isCompound, isCompound, contentCount_map]
  | not | compare | null | memberOf | between | fragment | always | never => rfl

mutual

/-- **A changed condition is written with the changed pieces.** -/
theorem map_render : ∀ c : Condition, c.render.map (Sql.Piece.map g h) = (c.map g h).render
  | .all members => by
    rw [map, render, render, Sql.map_joined, contentCount_map, map_renderMembers]
  | .any members => by
    rw [map, render, render, Sql.map_joined, contentCount_map, map_renderMembers]
  | .not inner => by
    have ih := map_render inner
    rw [map, render, render, ← ih, Sql.isBlank_map]
    split_ifs
    · rfl
    · rw [List.map_cons, Sql.map_parenthesized]
      rfl
  | .compare .. => rfl
  | .null .. => rfl
  | .memberOf column values negated => by
    rw [map, render, render, List.isEmpty_map]
    split_ifs
    · rfl
    · rw [test, List.map_cons, List.map_cons, Sql.map_parenthesized, Sql.map_joined, List.map_map,
        List.map_map]
      rfl
  | .between .. => rfl
  | .fragment .. => rfl
  | .always => rfl
  | .never => rfl

theorem map_renderMembers : ∀ (alone : Bool) (members : List Condition),
    (renderMembers alone members).map (List.map (Sql.Piece.map g h)) =
      renderMembers alone (mapMembers g h members)
  | _, [] => rfl
  | alone, member :: members => by
    have ih := map_renderMembers alone members
    rw [mapMembers, renderMembers, renderMembers, isEmpty_map, isCompound_map, ← map_render member]
    split_ifs
    · exact ih
    · rw [List.map_cons, ih, Sql.map_parenthesized]
    · rw [List.map_cons, ih]

end

end Condition

/-! ### Selections and statements -/

section Statements
variable (g : Name → Name) (h : Value → Value)

/-- A selection with other names and values. -/
def Selection.map (s : Selection) : Selection where
  table := g s.table
  restriction := ⟨Condition.mapMembers g h s.restriction.members⟩
  limit := s.limit
  offset := s.offset

theorem Selection.map_whereClause (s : Selection) :
    s.whereClause.map (Sql.Piece.map g h) = (s.map g h).whereClause := by
  have hrender : s.restriction.render.map (Sql.Piece.map g h) = (s.map g h).restriction.render :=
    Condition.map_render g h _
  unfold whereClause
  dsimp only
  rw [← hrender, Sql.isBlank_map]
  split_ifs <;> rfl

theorem Selection.map_limitClause (s : Selection) :
    s.limitClause.map (Sql.Piece.map g h) = s.limitClause := by
  unfold limitClause
  cases s.limit <;> cases s.offset <;> rfl

theorem Selection.map_targetClause (s : Selection) :
    s.targetClause.map (Sql.Piece.map g h) = (s.map g h).targetClause := by
  have hlimited : (s.map g h).isLimited = s.isLimited := rfl
  unfold targetClause
  rw [hlimited, ← map_whereClause]
  split_ifs
  · rw [List.map_append, List.map_append, List.map_append, map_limitClause]
    rfl
  · rfl

theorem map_returningClause (returning : Bool) (table : Name) :
    (returningClause returning table).map (Sql.Piece.map g h) =
      returningClause returning (g table) := by
  cases returning <;> rfl

/-- A reading with other names and values. -/
def Select.map (q : Select) : Select where
  selection := q.selection.map g h
  columns := q.columns.map g
  order := q.order.map fun key => (g key.1, key.2)

theorem Select.map_projection (q : Select) :
    q.projection.map (Sql.Piece.map g h) = (q.map g h).projection := by
  unfold projection Select.map
  rw [List.isEmpty_map]
  split_ifs
  · rfl
  · exact Sql.map_nameList g h q.columns

theorem Select.map_orderClause (q : Select) :
    q.orderClause.map (Sql.Piece.map g h) = (q.map g h).orderClause := by
  unfold orderClause Select.map
  rw [List.isEmpty_map]
  split_ifs
  · rfl
  · rw [List.map_cons, Sql.map_joined, List.map_map, List.map_map]
    rfl

theorem Select.map_render (q : Select) : q.render.map (Sql.Piece.map g h) = (q.map g h).render := by
  simp only [render, List.map_append, List.map_cons, List.map_nil, map_projection,
    Selection.map_whereClause, map_orderClause, Selection.map_limitClause]
  rfl

/-- A change with other names and values. -/
def Update.map (q : Update) : Update where
  selection := q.selection.map g h
  assignments := q.assignments.map fun pair => (g pair.1, h pair.2)
  returning := q.returning

theorem Update.map_render (q : Update) : q.render.map (Sql.Piece.map g h) = (q.map g h).render := by
  simp only [render, Update.map, List.map_append, Sql.map_joined, List.map_map,
    Selection.map_targetClause, map_returningClause]
  rfl

/-- A removal with other names and values. -/
def Delete.map (q : Delete) : Delete where
  selection := q.selection.map g h
  returning := q.returning

theorem Delete.map_render (q : Delete) : q.render.map (Sql.Piece.map g h) = (q.map g h).render := by
  simp only [render, List.map_append, Selection.map_targetClause, map_returningClause]
  rfl

end Statements

/-! ### Layouts -/

/-- A statement that is laid out: as it is built, with the names that a count gives, and with the
cells of an addition row by row. -/
inductive Layout where
  | select (q : Select)
  | count (counted nested : Name) (s : Selection)
  | update (q : Update)
  | delete (q : Delete)
  | insert (table : Name) (columns : List Name) (rows : List (List (Option Value)))
      (returning : Bool)

namespace Layout

open Sql (Piece)

/-- The pieces of a count. -/
def countPieces (counted nested : Name) (s : Selection) : List Piece :=
  [.words "SELECT COUNT(*) AS ", .name counted, .words " FROM "] ++
    if s.isLimited then
      [.words "(SELECT * FROM ", .name s.table] ++ s.whereClause ++ s.limitClause ++
        [.words ") AS ", .name nested]
    else .name s.table :: s.whereClause

/-- What stands for a cell of an addition. -/
def cellPieces : Option Value → List Piece
  | some value => [.marker value]
  | none => [.words "DEFAULT"]

theorem cellPieces_get? (r : Record) (key : String) :
    cellPieces (r.get? key) = Insert.slot r key := by
  unfold Insert.slot
  cases r.get? key <;> rfl

/-- The pieces of an addition. -/
def insertPieces (table : Name) (columns : List Name) (rows : List (List (Option Value)))
    (returning : Bool) : List Piece :=
  [.words "INSERT INTO ", .name table] ++
    (if columns.isEmpty then [.words " DEFAULT VALUES"]
    else
      .words " " :: Sql.parenthesized (Sql.nameList columns) ++
        .words " VALUES " :: Sql.joined ", " (rows.map fun row =>
          Sql.parenthesized (Sql.joined ", " (row.map cellPieces)))) ++
    returningClause returning table

/-- The pieces of a layout. -/
def render : Layout → List Piece
  | .select q => q.render
  | .count counted nested s => countPieces counted nested s
  | .update q => q.render
  | .delete q => q.render
  | .insert table columns rows returning => insertPieces table columns rows returning

/-- A layout with other names and values. -/
def map (g : Name → Name) (h : Value → Value) : Layout → Layout
  | .select q => .select (q.map g h)
  | .count counted nested s => .count (g counted) (g nested) (s.map g h)
  | .update q => .update (q.map g h)
  | .delete q => .delete (q.map g h)
  | .insert table columns rows returning =>
    .insert (g table) (columns.map g) (rows.map (List.map (Option.map h))) returning

theorem map_countPieces (g : Name → Name) (h : Value → Value) (counted nested : Name)
    (s : Selection) : (countPieces counted nested s).map (Piece.map g h) =
      countPieces (g counted) (g nested) (s.map g h) := by
  have hlimited : (s.map g h).isLimited = s.isLimited := rfl
  unfold countPieces
  rw [List.map_append, hlimited]
  split_ifs
  · simp only [List.map_append, Selection.map_whereClause, Selection.map_limitClause]
    rfl
  · rw [List.map_cons (a := Piece.name s.table), Selection.map_whereClause]
    rfl

theorem map_cellPieces (g : Name → Name) (h : Value → Value) (cell : Option Value) :
    (cellPieces cell).map (Piece.map g h) = cellPieces (cell.map h) := by
  cases cell <;> rfl

theorem map_insertPieces (g : Name → Name) (h : Value → Value) (table : Name)
    (columns : List Name) (rows : List (List (Option Value))) (returning : Bool) :
    (insertPieces table columns rows returning).map (Piece.map g h) =
      insertPieces (g table) (columns.map g) (rows.map (List.map (Option.map h))) returning := by
  unfold insertPieces
  rw [List.map_append, List.map_append, map_returningClause, List.isEmpty_map]
  split_ifs
  · rfl
  · simp only [List.map_append, List.map_cons, Sql.map_parenthesized, Sql.map_nameList,
      Sql.map_joined, List.map_map, Function.comp_def, map_cellPieces]
    rfl

/-- **The pieces of a changed layout are the changed pieces.** -/
theorem map_render (g : Name → Name) (h : Value → Value) :
    ∀ l : Layout, l.render.map (Piece.map g h) = (l.map g h).render
  | .select q => q.map_render g h
  | .count counted nested s => map_countPieces g h counted nested s
  | .update q => q.map_render g h
  | .delete q => q.map_render g h
  | .insert table columns rows returning => map_insertPieces g h table columns rows returning

end Layout

/-- The layout of what is built. -/
def Builder.layout : Builder → Layout
  | .select q => .select q
  | .count q => .count Sql.countName Sql.nestedName q.selection
  | .update q => .update q
  | .delete q => .delete q
  | .insert q =>
    .insert q.table (q.columns.map (·.2))
      (q.records.map fun r => q.columns.map fun column => r.get? column.1) q.returning

theorem Builder.render_layout (b : Builder) : b.layout.render = b.render := by
  cases b with
  | insert q =>
    show Layout.insertPieces _ _ _ _ = q.render
    simp only [Layout.insertPieces, Insert.render, List.isEmpty_map, List.map_map,
      Function.comp_def, Layout.cellPieces_get?]
    rfl
  | select | count | update | delete => rfl

/-! ### Masks -/

/-- A name of as many parts, all of them alike. -/
def Name.mask (name : Name) : Name where
  parts := List.replicate name.parts.length "x"
  parts_ne_nil := by simpa using name.parts_ne_nil
  proper := by
    intro part h
    rw [List.eq_of_mem_replicate h]
    simp [ProperPart]

theorem Name.mask_mask (name : Name) : name.mask.mask = name.mask := by
  simp [mask]

namespace Sql

theorem outside_append (a b : List Lexeme) : outside (a ++ b) = outside a ++ outside b :=
  List.map_append

/-- Outside of its quotes a name has its dots and no more. -/
theorem outside_name (name : Name) : outside name.lexemes =
    (List.replicate name.parts.length none).intersperse (some '.') := by
  have hall : ∀ parts : List String,
      outside ((parts.map Lexeme.name).intersperse (.plain '.')) =
        (List.replicate parts.length none).intersperse (some '.') := by
    intro parts
    induction parts with
    | nil => rfl
    | cons part parts ih =>
      cases parts with
      | nil => rfl
      | cons next parts => exact congrArg (fun rest => none :: some '.' :: rest) ih
  exact hall name.parts

end Sql

/-- A condition with masked names and without its values. -/
def Condition.mask (c : Condition) : Condition :=
  c.map Name.mask fun _ => .null

namespace Layout

/-- A layout with masked names and without its values. -/
def mask (l : Layout) : Layout :=
  l.map Name.mask fun _ => .null

/-- What stands outside of the quoted names of a layout. -/
def outside (l : Layout) : List (Option Char) :=
  Sql.outside (l.render.flatMap Sql.Piece.lexemes)

/-- **Masking changes nothing outside of the quoted names.** -/
theorem outside_mask (l : Layout) : l.mask.outside = l.outside := by
  have hpieces : ∀ pieces : List Sql.Piece,
      Sql.outside
          ((pieces.map (Sql.Piece.map Name.mask fun _ => .null)).flatMap Sql.Piece.lexemes) =
        Sql.outside (pieces.flatMap Sql.Piece.lexemes) := by
    intro pieces
    induction pieces with
    | nil => rfl
    | cons piece pieces ih =>
      rw [List.map_cons, List.flatMap_cons, List.flatMap_cons, Sql.outside_append,
        Sql.outside_append, ih]
      cases piece with
      | name n =>
        have hname : Sql.outside n.mask.lexemes = Sql.outside n.lexemes := by
          rw [Sql.outside_name, Sql.outside_name, Name.mask, List.length_replicate]
        exact congrArg (· ++ _) hname
      | words | marker | fragment => rfl
  rw [outside, mask, ← map_render]
  exact hpieces l.render

end Layout

/-! ### Shapes of filters -/

namespace Name

/-- The mask of the name that a text is read as; a text that is no name counts as one part. -/
def maskOf (text : String) : Name :=
  match parse text with
  | .ok name => name.mask
  | .error _ => Sql.nestedName.mask

theorem maskOf_eq {text : String} {name : Name} (h : parse text = .ok name) :
    maskOf text = name.mask := by
  rw [maskOf, h]

theorem map_maskOf {texts : List String} {names : List Name} (h : parseAll texts = .ok names) :
    texts.map maskOf = names.map mask := by
  induction texts generalizing names with
  | nil =>
    cases h
    rfl
  | cons text texts ih =>
    obtain ⟨name, rest, hname, hrest, rfl⟩ := parseAll_cons.mp h
    rw [List.map_cons, List.map_cons, maskOf_eq hname, ih hrest]

end Name

namespace Filter

/-- The shape of a filter: how its tests are put together, with the names in them masked and without
their values. -/
inductive Shape where
  | tests (conditions : List Condition)
  | all (members : List Shape)
  | any (members : List Shape)
  | not (inner : Shape)

/-- The shape of a test of one column. -/
def Shape.test (column : String) (test : Name → Condition) : Shape :=
  .tests [(test (Name.maskOf column)).mask]

mutual

/-- **The shape of a filter.** -/
def shape : Filter → Shape
  | .properties record =>
    .tests (record.entries.map fun entry => (Condition.equals (Name.maskOf entry.1) entry.2).mask)
  | .all members => .all (shapes members)
  | .any members => .any (shapes members)
  | .not inner => .not inner.shape
  | .oneOf column values => .test column fun name => .oneOf name values
  | .noneOf column values => .test column fun name => .noneOf name values
  | .missing column => .test column fun name => .null name false
  | .present column => .test column fun name => .null name true
  | .between column low high => .test column fun name => .between name low high false
  | .outside column low high => .test column fun name => .between name low high true
  | .bounded side column value => .test column fun name => .compare name (.bound side) value
  | .fragment sql bindings => .tests [(Condition.fragment sql bindings).mask]
  | .deferred _ (.ok f) => f.shape
  | .deferred _ (.error _) => .tests []

/-- The shapes of some filters. -/
def shapes : List Filter → List Shape
  | [] => []
  | member :: members => member.shape :: shapes members

end

mutual

/-- The conditions that filters of a shape come to, masked. -/
def Shape.conditions : Shape → List Condition
  | .tests conditions => conditions
  | .all members => (Shape.parts members).reduceOption
  | .any members =>
    if members.isEmpty || (Shape.parts members).any Option.isNone then []
    else [.any (Shape.parts members).reduceOption]
  | .not inner =>
    match collapse inner.conditions with
    | some c => [.not c]
    | none => [.never]

/-- What the members of a group come to. -/
def Shape.parts : List Shape → List (Option Condition)
  | [] => []
  | member :: members => collapse member.conditions :: Shape.parts members

end

theorem shapes_append (before behind : List Filter) :
    shapes (before ++ behind) = shapes before ++ shapes behind := by
  induction before with
  | nil => rfl
  | cons member before ih => rw [List.cons_append, shapes, shapes, ih, List.cons_append]

theorem Shape.parts_append (before behind : List Shape) :
    Shape.parts (before ++ behind) = Shape.parts before ++ Shape.parts behind := by
  induction before with
  | nil => rfl
  | cons member before ih => rw [List.cons_append, Shape.parts, Shape.parts, ih, List.cons_append]

theorem mask_equals {a b : Name} (h : a.mask = b.mask) (value : Value) :
    (Condition.equals a value).mask = (Condition.equals b value).mask := by
  cases value <;> simp [Condition.equals, Condition.mask, Condition.map, h]

theorem mask_of_test? {f : Filter} {column : String} {test : Name → Condition}
    (htest : f.test? = some (column, test)) {a b : Name} (h : a.mask = b.mask) :
    (test a).mask = (test b).mask := by
  cases f <;> cases htest
  case oneOf values =>
    cases values <;> simp [Condition.oneOf, Condition.mask, Condition.map, h]
  case noneOf values =>
    cases values <;> simp [Condition.noneOf, Condition.mask, Condition.map, h]
  all_goals simp [Condition.mask, Condition.map, h]

theorem shape_of_test? {f : Filter} {column : String} {test : Name → Condition}
    (htest : f.test? = some (column, test)) {name : Name} (h : Name.parse column = .ok name) :
    f.shape = .tests [(test name).mask] := by
  have hmask : (Name.maskOf column).mask = name.mask := by
    rw [Name.maskOf_eq h, Name.mask_mask]
  rw [← mask_of_test? htest hmask]
  cases f <;> cases htest <;> rfl

theorem collapse_map (g : Name → Name) (h : Value → Value) {ds : List Condition}
    (hlive : ∀ d ∈ ds, d.isEmpty = false) :
    collapse (ds.map (Condition.map g h)) = (collapse ds).map (Condition.map g h) := by
  have hmapped : ∀ d ∈ ds.map (Condition.map g h), d.isEmpty = false := by
    intro d hd
    obtain ⟨e, he, rfl⟩ := List.mem_map.mp hd
    exact (Condition.isEmpty_map g h e).trans (hlive e he)
  rw [collapse, collapse, ofList_of_live hlive, ofList_of_live hmapped]
  rcases ds with _ | ⟨d, _ | ⟨e, ds⟩⟩
  · rfl
  · rfl
  · exact congrArg some (Condition.map_all g h (d :: e :: ds)).symm

theorem collapse_mask {ds : List Condition} (h : ∀ d ∈ ds, d.isEmpty = false) :
    collapse (ds.map Condition.mask) = (collapse ds).map Condition.mask :=
  collapse_map _ _ h

theorem mask_equalities : ∀ {entries : List (String × Value)} {names : List Name},
    Name.parseAll (entries.map (·.1)) = .ok names →
      (entries.map fun entry => (Condition.equals (Name.maskOf entry.1) entry.2).mask) =
        (names.zip entries).map fun pair => (Condition.equals pair.1 pair.2.2).mask
  | [], names, _ => by rw [List.zip_nil_right]; rfl
  | entry :: entries, names, h => by
    obtain ⟨name, rest, hname, hrest, rfl⟩ := Name.parseAll_cons.mp h
    have hmask : (Name.maskOf entry.1).mask = name.mask := by
      rw [Name.maskOf_eq hname, Name.mask_mask]
    rw [List.map_cons, List.zip_cons_cons, List.map_cons, mask_equals hmask, mask_equalities hrest]

mutual

/-- **The conditions of a filter are told by its shape,** up to names and values. -/
theorem Adds.mask : ∀ {f : Filter} {cs : List Condition}, Adds f cs →
    f.shape.conditions = cs.map Condition.mask
  | _, _, .properties h => by
    rw [shape, Shape.conditions, mask_equalities h, List.map_map]
    rfl
  | _, _, .all h => by
    rw [shape, Shape.conditions, h.mask, List.reduceOption_map]
  | _, _, @Adds.anyOpen _ _ member _ _ _ h hnone => by
    have hopen : collapse member.shape.conditions = none := by
      rw [h.mask, collapse_mask h.live, hnone]
      rfl
    rw [shape, Shape.conditions, shapes_append, Shape.parts_append, shapes, Shape.parts, hopen]
    simp
  | _, _, .anyNone => rfl
  | _, _, @Adds.any members c cs h => by
    have hparts : Shape.parts (shapes members) = ((c :: cs).map Condition.mask).map some := by
      rw [h.mask, List.map_map, List.map_map]
      rfl
    have hne : (shapes members).isEmpty = false := by
      cases members with
      | nil => cases h
      | cons => rfl
    have hclosed : (((c :: cs).map Condition.mask).map some).any Option.isNone = false := by simp
    rw [shape, Shape.conditions, hne, hparts, hclosed, if_neg (by decide), reduceOption_map_some,
      List.map_singleton, Condition.mask, Condition.map_any]
    rfl
  | _, _, .notNever h hnone => by
    rw [shape, Shape.conditions, h.mask, collapse_mask h.live, hnone]
    rfl
  | _, _, .not h hsome => by
    rw [shape, Shape.conditions, h.mask, collapse_mask h.live, hsome]
    rfl
  | _, _, .test htest h => by
    rw [shape_of_test? htest h]
    rfl
  | _, _, .fragment => rfl
  | _, _, .deferred h => by
    rw [shape]
    exact h.mask

theorem AddsEach.mask : ∀ {members : List Filter} {parts : List (Option Condition)},
    AddsEach members parts → Shape.parts (shapes members) = parts.map (Option.map Condition.mask)
  | _, _, .nil => rfl
  | _, _, .cons h hs => by
    rw [shapes, Shape.parts, h.mask, collapse_mask h.live, hs.mask, List.map_cons]

end

end Filter

/-! ### Shapes of requests -/

/-- The shape of a scope. -/
structure Scope.Shape where
  table : Name
  filter : Filter.Shape
  order : List (Name × Direction)
  limit : Option Nat
  skip : Option Nat

namespace Scope

/-- **The shape of a scope:** its filter up to names and values, with the names of its table and its
sort keys masked. -/
def shape (scope : Scope) : Shape where
  table := Name.maskOf scope.table
  filter := scope.wholeFilter.shape
  order := scope.order.map fun key => (Name.maskOf key.column, key.direction)
  limit := scope.limit
  skip := scope.skip

/-- The selection of a scope of a shape, masked. -/
def Shape.selection (shape : Shape) : Selection :=
  ⟨shape.table, ⟨shape.filter.conditions⟩, shape.limit, shape.skip⟩

theorem Selects.mask {scope : Scope} {s : Selection} (h : scope.Selects s) :
    s.map Name.mask (fun _ => .null) = scope.shape.selection := by
  have hmembers : Condition.mapMembers Name.mask (fun _ => .null) s.restriction.members =
      scope.wholeFilter.shape.conditions := by
    rw [h.adds.mask]
    exact Condition.mapMembers_eq_map _ _ _
  rw [Selection.map, hmembers, h.limit, h.offset, shape, Shape.selection, Name.maskOf_eq h.table]

theorem mask_order {scope : Scope} {order : List Name}
    (h : Name.parseAll (scope.order.map (·.column)) = .ok order) :
    (order.zip (scope.order.map (·.direction))).map (fun key => (key.1.mask, key.2)) =
      scope.shape.order := by
  calc (order.zip (scope.order.map (·.direction))).map (fun key => (key.1.mask, key.2))
      = (order.map Name.mask).zip (scope.order.map (·.direction)) := by
        rw [List.zip_map_left]
        rfl
    _ = ((scope.order.map (·.column)).map Name.maskOf).zip (scope.order.map (·.direction)) := by
        rw [Name.map_maskOf h]
    _ = scope.shape.order := by
        rw [List.map_map, List.zip_map']
        rfl

end Scope

namespace Request

/-- The shape of a request that can build a statement. -/
inductive Shape where
  | query (scope : Scope.Shape)
  | count (scope : Scope.Shape)
  | select (scope : Scope.Shape) (columns : List Name)
  | updateAll (scope : Scope.Shape) (columns : List Name)
  | deleteAll (scope : Scope.Shape)
  | insertAll (table : Name) (columns : List Name) (cells : List (List Bool))

/-- **The shape of a request:** its names masked, no values, and which cells are there. -/
def shape? : Request → Option Shape
  | .query scope => some (.query scope.shape)
  | .count scope => some (.count scope.shape)
  | .select scope columns => some (.select scope.shape (columns.map Name.maskOf))
  | .updateAll scope attributes =>
    some (.updateAll scope.shape (attributes.columns.map Name.maskOf))
  | .deleteAll scope => some (.deleteAll scope.shape)
  | .insertAll table records _ =>
    some (.insertAll (Name.maskOf table) ((Insert.keys records).map Name.maskOf)
      (records.map fun r => (Insert.keys records).map fun key => (r.get? key).isSome))
  | .execute _ => none

/-- What requests of a shape build, masked. -/
def Shape.layout : Shape → Layout
  | .query scope => .select ⟨scope.selection, [], scope.order⟩
  | .count scope => .count Sql.countName.mask Sql.nestedName.mask scope.selection
  | .select scope columns => .select ⟨scope.selection, columns, scope.order⟩
  | .updateAll scope columns =>
    .update ⟨scope.selection, columns.map fun name => (name, .null), true⟩
  | .deleteAll scope => .delete ⟨scope.selection, true⟩
  | .insertAll table columns cells =>
    .insert table columns (cells.map (List.map fun present => if present then some .null else none))
      true

theorem mask_assignments {names : List Name} {values : List Value}
    (h : names.length = values.length) :
    (names.map Name.mask).map (fun name => (name, Value.null)) =
      (names.zip values).map fun pair => (pair.1.mask, Value.null) := by
  have hfst : (names.zip values).map (·.1) = names := List.map_fst_zip (by omega)
  calc (names.map Name.mask).map (fun name => (name, Value.null))
      = (((names.zip values).map (·.1)).map Name.mask).map (fun name => (name, Value.null)) := by
        rw [hfst]
    _ = (names.zip values).map fun pair => (pair.1.mask, Value.null) := by
        rw [List.map_map, List.map_map]
        rfl

theorem mask_cells {keys : List String} {names : List Name} (h : names.length = keys.length)
    (r : Record) :
    (keys.map fun key => (r.get? key).isSome).map
        (fun present => if present then some Value.null else none) =
      ((keys.zip names).map fun column => r.get? column.1).map (Option.map fun _ => .null) := by
  have hfst : (keys.zip names).map (·.1) = keys := List.map_fst_zip (by omega)
  have hcell : ∀ key, (if (r.get? key).isSome then some Value.null else none) =
      (r.get? key).map fun _ => .null := by
    intro key
    cases r.get? key <;> rfl
  calc (keys.map fun key => (r.get? key).isSome).map
        (fun present => if present then some Value.null else none)
      = ((keys.zip names).map (·.1)).map (fun key => (r.get? key).map fun _ => Value.null) := by
        rw [hfst, List.map_map]
        exact List.map_congr_left fun key _ => hcell key
    _ = ((keys.zip names).map fun column => r.get? column.1).map (Option.map fun _ => .null) := by
        rw [List.map_map, List.map_map]
        rfl

/-- **What is built is told by the shape of the request,** up to names and values. -/
theorem Builds.mask {r : Request} {b : Builder} (h : r.Builds b) :
    r.shape?.map Shape.layout = some b.layout.mask := by
  cases h with
  | query hs horder =>
    have hs := Scope.selects_of_result hs
    show some (Layout.select ⟨_, _, _⟩) = _
    rw [← hs.mask, ← Scope.mask_order horder]
    rfl
  | count hs =>
    have hs := Scope.selects_of_result hs
    show some (Layout.count _ _ _) = _
    rw [← hs.mask]
    rfl
  | select hs hnames horder =>
    have hs := Scope.selects_of_result hs
    show some (Layout.select ⟨_, _, _⟩) = _
    rw [← hs.mask, ← Scope.mask_order horder, Name.map_maskOf hnames]
    rfl
  | @updateAll scope attributes s names hs hnames _ =>
    have hs := Scope.selects_of_result hs
    have hlength : names.length = (attributes.entries.map (·.2)).length := by
      rw [Name.length_of_parseAll hnames, Record.columns, List.length_map, List.length_map]
    show some (Layout.update ⟨_, _, _⟩) = _
    rw [← hs.mask, Name.map_maskOf hnames, mask_assignments hlength]
    rfl
  | deleteAll hs =>
    have hs := Scope.selects_of_result hs
    show some (Layout.delete ⟨_, _⟩) = _
    rw [← hs.mask]
    rfl
  | @insertAll table records keys name names htable hnames _ =>
    have hlength := Name.length_of_parseAll hnames
    have hcolumns : (((Insert.keys records).zip names).map (·.2)).map Name.mask =
        names.map Name.mask := by
      rw [List.map_snd_zip (by omega)]
    have hcells :
        (records.map fun r => (Insert.keys records).map fun key => (r.get? key).isSome).map
            (List.map fun present => if present then some Value.null else none) =
          (records.map fun r => ((Insert.keys records).zip names).map fun column =>
            r.get? column.1).map (List.map (Option.map fun _ => .null)) := by
      rw [List.map_map, List.map_map]
      exact List.map_congr_left fun r _ => mask_cells hlength r
    show some (Layout.insert _ _ _ _) = some (Layout.insert _ _ _ _)
    rw [Name.maskOf_eq htable, Name.map_maskOf hnames, hcells, hcolumns]

/-- **Names cannot escape their quotes.** In a statement without fragments every quote is closed,
the names that are read are the parts of its names in text order, and what stands outside of them is
that of the mask of the statement, in which all names of one number of parts are alike. For a
request without fragments the names are those that its texts are read as, and what stands outside of
them is told by the shape of the request. -/
theorem lexemes?_sql :
    (∀ b : Builder, b.fragments = [] → ∃ lexemes,
      Sql.lexemes? .outside b.statement.sql.toList = some lexemes ∧
        Sql.namesRead lexemes = (Sql.names b.contents).flatMap Name.parts ∧
        Sql.outside lexemes = b.layout.mask.outside) ∧
    ∀ (r : Request) (st : Statement), r.fragments = [] → r.plan = .ok (.send st) →
      ∃ lexemes names shape, Sql.lexemes? .outside st.sql.toList = some lexemes ∧
        Name.parseAll r.identifiers = .ok names ∧
        Sql.namesRead lexemes = names.flatMap Name.parts ∧
        r.shape? = some shape ∧ Sql.outside lexemes = shape.layout.outside := by
  have hread : ∀ b : Builder, b.fragments = [] → ∃ lexemes,
      Sql.lexemes? .outside b.statement.sql.toList = some lexemes ∧
        Sql.namesRead lexemes = (Sql.names b.contents).flatMap Name.parts ∧
        Sql.outside lexemes = b.layout.mask.outside := by
    intro b hb
    have hf : Sql.fragments b.render = [] := by rw [b.fragments_render, hb]
    refine ⟨_, Sql.lexemes?_text b.tidy_render hf, ?_, ?_⟩
    · rw [Sql.namesRead_flatMap, ← Sql.names_contents, b.contents_render]
    · rw [Layout.outside_mask, Layout.outside, b.render_layout]
  refine ⟨hread, fun r st hr hplan => ?_⟩
  obtain ⟨b, hb, rfl⟩ := builds_of_plan hplan
  obtain ⟨lexemes, hlexemes, hnames, houtside⟩ := hread b (List.subset_nil.mp (hr ▸ hb.fragments))
  obtain ⟨shape, hshape, hlayout⟩ := Option.map_eq_some_iff.mp hb.mask
  exact ⟨lexemes, _, shape, hlexemes, hb.names, hnames, hshape, houtside.trans (hlayout ▸ rfl)⟩

/-- A removal with quotes and the words of a statement in its names. -/
def escapingRequest : Request :=
  .deleteAll { Scope.ofTable "a.\"b\"\"\"" with filter := some (.missing "\"\"\" OR 1=1 --\"") }

theorem lexemes?_sql_escapingRequest :
    escapingRequest.fragments = [] ∧ ∃ st, escapingRequest.plan = .ok (.send st) ∧
      ∃ lexemes, Sql.lexemes? .outside st.sql.toList = some lexemes ∧
        Sql.namesRead lexemes = ["a", "b\"", "\" OR 1=1 --", "a", "b\""] := by
  have hfragments : escapingRequest.fragments = [] := rfl
  have hplan : escapingRequest.plan = .ok (.send
      ⟨"DELETE FROM \"a\".\"b\"\"\" WHERE \"\"\" OR 1=1 --\" IS NULL " ++
        "RETURNING \"a\".\"b\"\"\".*", []⟩) := by
    decide +kernel
  have hidentifiers : (Name.parseAll escapingRequest.identifiers).map
      (fun names => names.flatMap Name.parts) = .ok ["a", "b\"", "\" OR 1=1 --", "a", "b\""] := by
    decide +kernel
  obtain ⟨lexemes, names, shape, hlexemes, hnames, hread, -⟩ :=
    lexemes?_sql.2 _ _ hfragments hplan
  rw [hnames] at hidentifiers
  exact ⟨hfragments, _, hplan, lexemes, hlexemes, hread.trans (Except.ok.inj hidentifiers)⟩

end Request

end Rowset
