import Rowset.Proofs.Derivation
import Rowset.Request.Run
import Mathlib.Data.List.Zip

/-!
# What a request builds

`Request.Builds` says which statement a request builds when it is planned, with one way for each
kind of request: which texts are read as names, in which order they stand, and what the selection of
the scope is. Planning is written out here once as a sequence of steps: the selection of the scope
(`Scope.result_selection`), the texts that are read as names, and the check of what has been built
(`planSelect_eq`, `planUpdate_eq`, `planInsert_eq`). By these equations every planned statement has
been built in one of the ways (`builds_of_plan`), so that what holds of all planned statements is
shown along them, and whatever is built is planned (`plan_of_builds`).
-/

namespace Rowset

/-! ### Scopes -/

namespace Scope

/-- The filter of a scope; without one, the conjunction of nothing. -/
def wholeFilter (scope : Scope) : Filter :=
  scope.filter.getD (.all [])

/-- **A scope has a selection:** its table is read as a name, and the restriction consists of the
conditions that its filter is compiled to. -/
structure Selects (scope : Scope) (s : Selection) : Prop where
  table : Name.parse scope.table = .ok s.table
  compiled : scope.wholeFilter.conjuncts.result = .ok s.restriction.members
  limit : s.limit = scope.limit
  offset : s.offset = scope.skip

theorem foldl_restrict (s : Selection) (cs : List Condition) :
    cs.foldl Selection.restrict s =
      { s with restriction := cs.foldl Conjunction.and s.restriction } := by
  induction cs generalizing s with
  | nil => rfl
  | cons c cs ih => rw [List.foldl_cons, ih, List.foldl_cons]; rfl

theorem Selects.adds {scope : Scope} {s : Selection} (h : scope.Selects s) :
    scope.wholeFilter.Adds s.restriction.members :=
  Filter.adds_of_result _ _ h.compiled

theorem result_applyFilter (s : Selection) (f : Filter) :
    (s.applyFilter f).result =
      f.conjuncts.result >>= fun cs => pure (cs.foldl Selection.restrict s) :=
  Filter.Outcome.result_bind ..

/-- **How a scope comes to its selection:** it is checked, its table is read, and its filter is
compiled. -/
theorem result_selection (scope : Scope) :
    scope.selection.result =
      scope.validate >>= fun _ => Name.parse scope.table >>= fun table =>
        scope.wholeFilter.conjuncts.result >>= fun cs =>
          pure ⟨table, .ofList cs, scope.limit, scope.skip⟩ := by
  unfold selection wholeFilter
  rw [Filter.Outcome.result_bind]
  cases scope.validate with
  | error fault => rfl
  | ok _ =>
    cases Name.parse scope.table with
    | error fault =>
      simp only [Filter.Outcome.ofExcept]
      rfl
    | ok table =>
      simp only [Filter.Outcome.ofExcept]
      cases scope.filter with
      | none => rfl
      | some f =>
        show ((Selection.ofTable table).applyFilter f >>= _).result = f.conjuncts.result >>= _
        rw [Filter.Outcome.result_bind, result_applyFilter]
        cases f.conjuncts.result with
        | error fault => rfl
        | ok cs =>
          show Except.ok _ = Except.ok _
          rw [foldl_restrict]
          rfl

theorem selects_of_result {scope : Scope} {s : Selection} (h : scope.selection.result = .ok s) :
    scope.Selects s := by
  rw [result_selection] at h
  obtain ⟨-, -, h⟩ := bind_eq_ok.mp h
  obtain ⟨table, htable, h⟩ := bind_eq_ok.mp h
  obtain ⟨cs, hcs, h⟩ := bind_eq_ok.mp h
  cases h
  refine ⟨htable, ?_, rfl, rfl⟩
  show scope.wholeFilter.conjuncts.result = .ok (Conjunction.ofList cs).members
  rw [Filter.ofList_of_live (Filter.adds_of_result _ cs hcs).live]
  exact hcs

end Scope

/-! ### Requests -/

theorem Insert.statement_eq_ok {q : Insert} {st : Statement} :
    q.statement = .ok st ↔ q.fault? = none ∧ st = (Builder.insert q).statement := by
  unfold Insert.statement
  cases q.fault? with
  | none =>
    rw [Except.ok.injEq, eq_comm, eq_self, true_and]
    rfl
  | some fault => simp

/-- The selection that a statement is about, if it is about one. -/
def Builder.selection? : Builder → Option Selection
  | .select q => some q.selection
  | .count q => some q.selection
  | .update q => some q.selection
  | .delete q => some q.selection
  | .insert _ => none

theorem Builder.fragments_of_selection? {b : Builder} {s : Selection} (h : b.selection? = some s) :
    b.fragments = s.fragments := by
  cases b <;> cases h <;> rfl

namespace Request

/-- The scope that a request is on, if it is on one. -/
def scope? : Request → Option Scope
  | .query scope => some scope
  | .count scope => some scope
  | .select scope _ => some scope
  | .updateAll scope _ => some scope
  | .deleteAll scope => some scope
  | .insertAll .. => none
  | .execute _ => none

/-- **A request builds a statement.** -/
inductive Builds : Request → Builder → Prop where
  | query {scope : Scope} {s : Selection} {order : List Name}
      (hs : scope.selection.result = .ok s)
      (horder : Name.parseAll (scope.order.map (·.column)) = .ok order) :
      Builds (.query scope) (.select ⟨s, [], order.zip (scope.order.map (·.direction))⟩)
  | count {scope : Scope} {s : Selection} (hs : scope.selection.result = .ok s) :
      Builds (.count scope) (.count (.ofSelection s))
  | select {scope : Scope} {columns : List String} {s : Selection} {names order : List Name}
      (hs : scope.selection.result = .ok s)
      (hnames : Name.parseAll columns = .ok names)
      (horder : Name.parseAll (scope.order.map (·.column)) = .ok order) :
      Builds (.select scope columns) (.select ⟨s, names, order.zip (scope.order.map (·.direction))⟩)
  | updateAll {scope : Scope} {attributes : Record} {s : Selection} {names : List Name}
      (hs : scope.selection.result = .ok s)
      (hnames : Name.parseAll attributes.columns = .ok names)
      (hne : attributes.entries ≠ []) :
      Builds (.updateAll scope attributes)
        (.update ⟨s, names.zip (attributes.entries.map (·.2)), true⟩)
  | deleteAll {scope : Scope} {s : Selection} (hs : scope.selection.result = .ok s) :
      Builds (.deleteAll scope) (.delete ⟨s, true⟩)
  | insertAll {table : String} {records : List Record} {keys : List (String × KeyKind)}
      {name : Name} {names : List Name} (htable : Name.parse table = .ok name)
      (hnames : Name.parseAll (Insert.keys records) = .ok names)
      (hfault : (Insert.mk name ((Insert.keys records).zip names) records true).fault? = none) :
      Builds (.insertAll table records keys)
        (.insert ⟨name, (Insert.keys records).zip names, records, true⟩)

/-- What is built for a request on a scope is about the selection of the scope. -/
theorem Builds.selection? {r : Request} {b : Builder} {scope : Scope} (h : r.Builds b)
    (hscope : r.scope? = some scope) :
    ∃ s, scope.selection.result = .ok s ∧ b.selection? = some s := by
  cases h with
  | query hs | count hs | select hs | updateAll hs | deleteAll hs =>
    cases hscope
    exact ⟨_, hs, rfl⟩
  | insertAll => cases hscope

/-- The fragments of the caller in the filter of a request. -/
def fragments (r : Request) : List Statement :=
  match r.scope? with
  | some scope => scope.wholeFilter.fragments
  | none => []

/-- What is built brings only fragments of the request. -/
theorem Builds.fragments {r : Request} {b : Builder} (h : r.Builds b) :
    b.fragments ⊆ r.fragments := by
  unfold Request.fragments
  cases hscope : r.scope? with
  | some scope =>
    obtain ⟨s, hs, hbs⟩ := h.selection? hscope
    rw [Builder.fragments_of_selection? hbs, Selection.fragments,
      Condition.memberFragments_eq_flatMap]
    exact (Scope.selects_of_result hs).adds.fragments
  | none =>
    cases h with
    | insertAll => exact List.nil_subset _
    | query | count | select | updateAll | deleteAll => cases hscope

theorem foldl_order (q : Select) (order : List (Name × Direction)) :
    order.foldl (fun q key => { q with order := q.order ++ [key] }) q =
      { q with order := q.order ++ order } := by
  induction order generalizing q with
  | nil => simp
  | cons key order ih => simp [ih]

theorem foldl_assignments (q : Update) (assignments : List (Name × Value)) :
    assignments.foldl (fun q pair => { q with assignments := q.assignments ++ [pair] }) q =
      { q with assignments := q.assignments ++ assignments } := by
  induction assignments generalizing q with
  | nil => simp
  | cons pair assignments ih => simp [ih]

/-! ### Planning, step by step -/

theorem applyOrder_eq (scope : Scope) (q : Select) :
    scope.applyOrder q =
      Name.parseAll (scope.order.map (·.column)) >>= fun order =>
        pure { q with order := q.order ++ order.zip (scope.order.map (·.direction)) } := by
  refine (Name.foldlM_parse_eq SortKey.column SortKey.direction
    (fun (q : Select) key => { q with order := q.order ++ [key] }) scope.order q).trans ?_
  simp only [foldl_order]

theorem setRecord_eq (attributes : Record) (q : Update) :
    q.setRecord attributes =
      Name.parseAll attributes.columns >>= fun names =>
        pure { q with
          assignments := q.assignments ++ names.zip (attributes.entries.map (·.2)) } := by
  refine (Name.foldlM_parse_eq Prod.fst Prod.snd
    (fun (q : Update) pair => { q with assignments := q.assignments ++ [pair] })
    attributes.entries q).trans ?_
  simp only [foldl_assignments]
  rfl

theorem withRecords_eq (records : List Record) (q : Insert) :
    q.withRecords records =
      Name.parseAll (Insert.keys records) >>= fun names =>
        pure { q with columns := (Insert.keys records).zip names, records } := by
  have hcolumns := Name.mapM_parse_eq id (fun name key => (key, name)) (Insert.keys records)
  rw [List.map_id] at hcolumns
  unfold Insert.withRecords
  refine (congrArg (· >>= _) hcolumns).trans ?_
  cases Name.parseAll (Insert.keys records) with
  | error fault => rfl
  | ok names =>
    show Except.ok _ = Except.ok _
    rw [← List.zip_swap names]
    rfl

theorem planSelect_eq (scope : Scope) (columns : List String) :
    planSelect scope columns =
      scope.selection.result >>= fun s => Name.parseAll columns >>= fun names =>
        Name.parseAll (scope.order.map (·.column)) >>= fun order =>
          pure (.send (Builder.select
            ⟨s, names, order.zip (scope.order.map (·.direction))⟩).statement) := by
  unfold planSelect
  cases scope.selection.result with
  | error fault => rfl
  | ok s =>
    show (Select.ofSelection s).withColumns columns >>= _ = Name.parseAll columns >>= _
    unfold Select.withColumns
    cases Name.parseAll columns with
    | error fault => rfl
    | ok names =>
      show scope.applyOrder _ >>= _ = _
      rw [applyOrder_eq]
      cases Name.parseAll (scope.order.map (·.column)) <;> rfl

theorem select_of_planSelect {scope : Scope} {columns : List String} {st : Statement}
    (h : planSelect scope columns = .ok (.send st)) :
    ∃ s names order, scope.selection.result = .ok s ∧ Name.parseAll columns = .ok names ∧
      Name.parseAll (scope.order.map (·.column)) = .ok order ∧
      st = (Builder.select ⟨s, names, order.zip (scope.order.map (·.direction))⟩).statement := by
  rw [planSelect_eq] at h
  obtain ⟨s, hs, h⟩ := bind_eq_ok.mp h
  obtain ⟨names, hnames, h⟩ := bind_eq_ok.mp h
  obtain ⟨order, horder, h⟩ := bind_eq_ok.mp h
  cases h
  exact ⟨s, names, order, hs, hnames, horder, rfl⟩

theorem planUpdate_eq (scope : Scope) {attributes : Record} (hne : attributes.entries ≠ []) :
    planUpdate scope attributes =
      scope.selection.result >>= fun s => Name.parseAll attributes.columns >>= fun names =>
        pure (.send (Builder.update
          ⟨s, names.zip (attributes.entries.map (·.2)), true⟩).statement) := by
  have hempty : attributes.isEmpty = false := by
    simpa [Record.isEmpty] using hne
  unfold planUpdate
  rw [hempty, if_neg (by decide)]
  cases scope.selection.result with
  | error fault => rfl
  | ok s =>
    show (Update.ofSelection s).setRecord attributes >>= _ = Name.parseAll attributes.columns >>= _
    rw [setRecord_eq]
    cases hnames : Name.parseAll attributes.columns with
    | error fault => rfl
    | ok names =>
      -- As many names have been read as there are attributes, so the check of the builder passes.
      have hassign : names.zip (attributes.entries.map (·.2)) ≠ [] := by
        have hlength := Name.length_of_parseAll hnames
        rw [Record.columns, List.length_map] at hlength
        have hpos := List.length_pos_iff.mpr hne
        rw [← List.length_pos_iff, List.length_zip, List.length_map]
        omega
      show (Update.mk s ([] ++ names.zip (attributes.entries.map (·.2))) true).statement >>= _ = _
      unfold Update.statement Update.fault?
      rw [List.nil_append, List.isEmpty_eq_false_iff.mpr hassign]
      rfl

theorem plan_updateAll_of_entries_eq_nil (scope : Scope) {attributes : Record}
    (h : attributes.entries = []) : (updateAll scope attributes).plan =
      .error (.validation "update_all requires at least one attribute") := by
  show planUpdate scope attributes = _
  unfold planUpdate Record.isEmpty
  rw [h]
  rfl

theorem planInsert_eq (table : String) {records : List Record} (hne : records ≠ []) :
    planInsert table records =
      Name.parse table >>= fun name => Name.parseAll (Insert.keys records) >>= fun names =>
        (Insert.mk name ((Insert.keys records).zip names) records true).statement >>= fun st =>
          pure (.send st) := by
  unfold planInsert
  rw [List.isEmpty_eq_false_iff.mpr hne]
  cases Name.parse table with
  | error fault => rfl
  | ok name =>
    show (Insert.ofTable name).withRecords records >>= _ = _ >>= _
    rw [withRecords_eq]
    cases Name.parseAll (Insert.keys records) <;> rfl

theorem planInsert_nil (table : String) (keys : List (String × KeyKind)) :
    (insertAll table [] keys).plan = Name.parse table >>= fun _ => pure .nothing := rfl

/-- **Every statement that is planned has been built in one of these ways.** -/
theorem builds_of_plan {r : Request} {st : Statement} (h : r.plan = .ok (.send st)) :
    ∃ b, r.Builds b ∧ b.statement = st := by
  cases r with
  | query scope =>
    obtain ⟨s, names, order, hs, hnames, horder, rfl⟩ := select_of_planSelect h
    cases hnames
    exact ⟨_, .query hs horder, rfl⟩
  | count scope =>
    obtain ⟨s, hs, h⟩ := bind_eq_ok.mp h
    cases h
    exact ⟨_, .count hs, rfl⟩
  | select scope columns =>
    obtain ⟨s, names, order, hs, hnames, horder, rfl⟩ := select_of_planSelect h
    exact ⟨_, .select hs hnames horder, rfl⟩
  | updateAll scope attributes =>
    by_cases hne : attributes.entries = []
    · rw [plan_updateAll_of_entries_eq_nil scope hne] at h
      cases h
    · obtain ⟨s, hs, h⟩ := bind_eq_ok.mp ((planUpdate_eq scope hne).symm.trans h)
      obtain ⟨names, hnames, h⟩ := bind_eq_ok.mp h
      cases h
      exact ⟨_, .updateAll hs hnames hne, rfl⟩
  | deleteAll scope =>
    obtain ⟨s, hs, h⟩ := bind_eq_ok.mp h
    cases h
    exact ⟨_, .deleteAll hs, rfl⟩
  | insertAll table records keys =>
    by_cases hne : records = []
    · rw [hne, planInsert_nil] at h
      obtain ⟨name, -, h⟩ := bind_eq_ok.mp h
      cases h
    · obtain ⟨name, htable, h⟩ := bind_eq_ok.mp ((planInsert_eq table hne).symm.trans h)
      obtain ⟨names, hnames, h⟩ := bind_eq_ok.mp h
      obtain ⟨st', hst, h⟩ := bind_eq_ok.mp h
      cases h
      obtain ⟨hfault, rfl⟩ := Insert.statement_eq_ok.mp hst
      exact ⟨_, .insertAll htable hnames hfault, rfl⟩
  | execute sql => cases h

/-- **What is built for a request is sent.** -/
theorem plan_of_builds {r : Request} {b : Builder} (h : r.Builds b) :
    r.plan = .ok (.send b.statement) := by
  cases h with
  | query hs horder =>
    refine (planSelect_eq _ []).trans ?_
    rw [hs, horder]
    rfl
  | count hs =>
    show _ >>= _ = _
    rw [hs]
    rfl
  | select hs hnames horder =>
    refine (planSelect_eq _ _).trans ?_
    rw [hs, hnames, horder]
    rfl
  | updateAll hs hnames hne =>
    refine (planUpdate_eq _ hne).trans ?_
    rw [hs, hnames]
    rfl
  | deleteAll hs =>
    show _ >>= _ = _
    rw [hs]
    rfl
  | insertAll htable hnames hfault =>
    refine (planInsert_eq _ ?_).trans ?_
    · rintro rfl
      cases hfault
    · rw [htable, hnames]
      show (Insert.statement _ >>= _) = _
      unfold Insert.statement
      rw [hfault]
      rfl

end Request

end Rowset
