import Rowset.Proofs.Planning

/-!
# Why a request is refused

The steps of planning are followed to the first one that fails.

* `selection_eq_error_iff`: a scope has no selection when it is not well formed, its table is no
  name or its filter is not compiled (`Scope.Fails`).
* `plan_eq_error_iff`: a request that is offered fails with the first thing that is wrong with it,
  and `Request.Fails` says what can be wrong.
* `plan_eq_nothing_iff`: there is nothing to send exactly when no records are added to a table.
-/

namespace Rowset

/-! ### Scopes -/

namespace Scope

/-- **The first thing that is wrong with a scope.** -/
inductive Fails (scope : Scope) : Fault → Prop where
  /-- It is not well formed. -/
  | invalid {fault : Fault} (h : scope.fault? = some fault) : Fails scope fault
  /-- Its table is no name. -/
  | table {fault : Fault} (hvalid : scope.fault? = none)
      (h : Name.parse scope.table = .error fault) : Fails scope fault
  /-- Its filter is not compiled, be it for a column that is no name or for a deferred filter that
  is not found out. -/
  | filter {fault : Fault} {table : Name} (hvalid : scope.fault? = none)
      (htable : Name.parse scope.table = .ok table)
      (h : scope.wholeFilter.conjuncts.result = .error fault) : Fails scope fault

theorem validate_eq_error {scope : Scope} {fault : Fault} :
    scope.validate = .error fault ↔ scope.fault? = some fault := by
  unfold validate
  cases scope.fault? <;> simp

theorem validate_eq_ok {scope : Scope} {u : Unit} :
    scope.validate = .ok u ↔ scope.fault? = none := by
  unfold validate
  cases scope.fault? <;> simp

theorem selection_eq_error_iff {scope : Scope} {fault : Fault} :
    scope.selection.result = .error fault ↔ scope.Fails fault := by
  rw [result_selection, bind_eq_error, validate_eq_error]
  constructor
  · rintro (h | ⟨_, hvalid, h⟩)
    · exact .invalid h
    · have hvalid := validate_eq_ok.mp hvalid
      rcases bind_eq_error.mp h with h | ⟨table, htable, h⟩
      · exact .table hvalid h
      · rcases bind_eq_error.mp h with h | ⟨cs, -, h⟩
        · exact .filter hvalid htable h
        · cases h
  · intro h
    cases h with
    | invalid h => exact .inl h
    | table hvalid h => exact .inr ⟨(), validate_eq_ok.mpr hvalid, bind_eq_error.mpr (.inl h)⟩
    | filter hvalid htable h =>
      exact .inr ⟨(), validate_eq_ok.mpr hvalid,
        bind_eq_error.mpr (.inr ⟨_, htable, bind_eq_error.mpr (.inl h)⟩)⟩

end Scope

/-! ### Requests -/

theorem Insert.statement_eq_error {q : Insert} {fault : Fault} :
    q.statement = .error fault ↔ q.fault? = some fault := by
  unfold Insert.statement
  cases q.fault? <;> simp

namespace Request

/-- The texts that a request on a scope reads as names after the scope has its selection: the
columns that it reads or changes, then those that it sorts by. -/
def texts : Request → List String
  | .query scope => scope.order.map (·.column)
  | .select scope columns => columns ++ scope.order.map (·.column)
  | .updateAll _ attributes => attributes.columns
  | _ => []

/-- Holds of the requests that ask for something to be done, as a change without attributes does
not. -/
def HasWork : Request → Prop
  | .updateAll _ attributes => attributes.entries ≠ []
  | _ => True

theorem exists_of_not_hasWork {r : Request} (h : ¬ r.HasWork) :
    ∃ scope attributes, r = .updateAll scope attributes ∧ attributes.entries = [] := by
  cases r with
  | updateAll scope attributes => exact ⟨scope, attributes, rfl, not_not.mp h⟩
  | query | count | select | deleteAll | insertAll | execute => exact absurd trivial h

/-- **The first thing that is wrong with a request.** -/
inductive Fails : Request → Fault → Prop where
  /-- There is nothing to change. -/
  | attributes {scope : Scope} {attributes : Record} (h : attributes.entries = []) :
      Fails (.updateAll scope attributes)
        (.validation "update_all requires at least one attribute")
  /-- Its scope has no selection. -/
  | scope {r : Request} {scope : Scope} {fault : Fault} (hscope : r.scope? = some scope)
      (hwork : r.HasWork)
      (h : scope.Fails fault) : Fails r fault
  /-- A column is no name. -/
  | column {r : Request} {scope : Scope} {s : Selection} {fault : Fault}
      (hscope : r.scope? = some scope)
      (hwork : r.HasWork)
      (hs : scope.selection.result = .ok s) (h : Name.parseAll r.texts = .error fault) :
      Fails r fault
  /-- The table of the records is no name. -/
  | table {table : String} {records : List Record} {keys : List (String × KeyKind)} {fault : Fault}
      (h : Name.parse table = .error fault) : Fails (.insertAll table records keys) fault
  /-- A column of the records is no name. -/
  | key {table : String} {records : List Record} {keys : List (String × KeyKind)} {name : Name}
      {fault : Fault} (htable : Name.parse table = .ok name)
      (h : Name.parseAll (Insert.keys records) = .error fault) :
      Fails (.insertAll table records keys) fault
  /-- There are records, but what has been built of them is no statement. -/
  | records {table : String} {records : List Record} {keys : List (String × KeyKind)} {name : Name}
      {names : List Name} {fault : Fault} (htable : Name.parse table = .ok name)
      (hne : records ≠ []) (hnames : Name.parseAll (Insert.keys records) = .ok names)
      (h : (Insert.mk name ((Insert.keys records).zip names) records true).fault? = some fault) :
      Fails (.insertAll table records keys) fault

/-- A request on a scope that has something to do is planned in three steps: the selection of the
scope, the names, and the statement. -/
theorem exists_plan_eq {r : Request} {scope : Scope} (hscope : r.scope? = some scope)
    (hwork : r.HasWork) :
    ∃ build : Selection → List Name → Builder,
      r.plan = scope.selection.result >>= fun s => Name.parseAll r.texts >>= fun names =>
        pure (.send (build s names).statement) := by
  cases r with
  | query scope =>
    cases hscope
    exact ⟨_, planSelect_eq scope []⟩
  | count scope =>
    cases hscope
    exact ⟨fun s _ => .count (.ofSelection s), rfl⟩
  | select scope columns =>
    cases hscope
    refine ⟨fun s names => .select ⟨s, names.take columns.length,
      (names.drop columns.length).zip (scope.order.map (·.direction))⟩, ?_⟩
    refine (planSelect_eq scope columns).trans (congrArg (_ >>= ·) (funext fun s => ?_))
    rw [texts, Name.parseAll_append_eq]
    cases hnames : Name.parseAll columns with
    | error fault => rfl
    | ok names =>
      show Name.parseAll _ >>= _ = (Name.parseAll _ >>= _) >>= _
      cases Name.parseAll (scope.order.map (·.column)) with
      | error fault => rfl
      | ok order =>
        show Except.ok _ = Except.ok _
        rw [← Name.length_of_parseAll hnames]
        dsimp only
        rw [List.take_left, List.drop_left]
  | updateAll scope attributes =>
    cases hscope
    exact ⟨_, planUpdate_eq scope hwork⟩
  | deleteAll scope =>
    cases hscope
    exact ⟨fun s _ => .delete ⟨s, true⟩, rfl⟩
  | insertAll => cases hscope
  | execute => cases hscope

theorem plan_eq_error_iff_of_scope {r : Request} {scope : Scope} {fault : Fault}
    (hscope : r.scope? = some scope)
    (hwork : r.HasWork) :
    r.plan = .error fault ↔ scope.Fails fault ∨
      ∃ s, scope.selection.result = .ok s ∧ Name.parseAll r.texts = .error fault := by
  obtain ⟨build, hplan⟩ := exists_plan_eq hscope hwork
  rw [hplan, bind_eq_error, Scope.selection_eq_error_iff]
  refine or_congr_right (exists_congr fun s => and_congr_right fun _ => ?_)
  rw [bind_eq_error]
  simp [pure, Except.pure]

theorem plan_eq_error_iff_of_insert {table : String} {records : List Record}
    {keys : List (String × KeyKind)} {fault : Fault} :
    (insertAll table records keys).plan = .error fault ↔
      Fails (.insertAll table records keys) fault := by
  by_cases hne : records = []
  · subst hne
    rw [planInsert_nil, bind_eq_error]
    constructor
    · rintro (h | ⟨_, -, h⟩)
      · exact .table h
      · cases h
    · intro h
      cases h with
      | scope hscope => cases hscope
      | column hscope => cases hscope
      | table h => exact .inl h
      | key _ h => cases h
      | records _ hne => exact absurd rfl hne
  · show planInsert table records = _ ↔ _
    rw [planInsert_eq table hne, bind_eq_error]
    constructor
    · rintro (h | ⟨name, htable, h⟩)
      · exact .table h
      · rcases bind_eq_error.mp h with h | ⟨names, hnames, h⟩
        · exact .key htable h
        · rcases bind_eq_error.mp h with h | ⟨st, -, h⟩
          · exact .records htable hne hnames (Insert.statement_eq_error.mp h)
          · cases h
    · intro h
      cases h with
      | scope hscope => cases hscope
      | column hscope => cases hscope
      | table h => exact .inl h
      | key htable h => exact .inr ⟨_, htable, bind_eq_error.mpr (.inl h)⟩
      | records htable _ hnames h =>
        exact .inr ⟨_, htable, bind_eq_error.mpr (.inr ⟨_, hnames,
          bind_eq_error.mpr (.inl (Insert.statement_eq_error.mpr h))⟩)⟩

/-- **A request that is offered fails with the first thing that is wrong with it.** -/
theorem plan_eq_error_iff {r : Request} {fault : Fault} (hoffered : ∀ sql, r ≠ .execute sql) :
    r.plan = .error fault ↔ r.Fails fault := by
  cases hscope : r.scope? with
  | none =>
    cases r with
    | insertAll table records keys => exact plan_eq_error_iff_of_insert
    | execute sql => exact absurd rfl (hoffered sql)
    | query | count | select | updateAll | deleteAll => cases hscope
  | some scope =>
    by_cases hwork : r.HasWork
    · rw [plan_eq_error_iff_of_scope hscope hwork]
      constructor
      · rintro (h | ⟨s, hs, h⟩)
        · exact .scope hscope hwork h
        · exact .column hscope hwork hs h
      · intro h
        cases h with
        | attributes h => exact absurd h hwork
        | scope hscope' _ h =>
          cases hscope.symm.trans hscope'
          exact .inl h
        | column hscope' _ hs h =>
          cases hscope.symm.trans hscope'
          exact .inr ⟨_, hs, h⟩
        | table | key | records => cases hscope
    · obtain ⟨scope, attributes, rfl, hempty⟩ := exists_of_not_hasWork hwork
      rw [plan_updateAll_of_entries_eq_nil scope hempty]
      constructor
      · intro h
        cases h
        exact .attributes hempty
      · intro h
        cases h with
        | attributes => rfl
        | scope _ hwork => exact absurd hempty hwork
        | column _ hwork => exact absurd hempty hwork

/-- **There is nothing to send exactly when no records are added to a table.** -/
theorem plan_eq_nothing_iff {r : Request} : r.plan = .ok .nothing ↔
    ∃ table keys name, r = .insertAll table [] keys ∧ Name.parse table = .ok name := by
  constructor
  · intro h
    cases hscope : r.scope? with
    | some scope =>
      by_cases hwork : r.HasWork
      · obtain ⟨build, hplan⟩ := exists_plan_eq hscope hwork
        rw [hplan] at h
        obtain ⟨s, -, h⟩ := bind_eq_ok.mp h
        obtain ⟨names, -, h⟩ := bind_eq_ok.mp h
        cases h
      · obtain ⟨scope, attributes, rfl, hempty⟩ := exists_of_not_hasWork hwork
        rw [plan_updateAll_of_entries_eq_nil scope hempty] at h
        cases h
    | none =>
      cases r with
      | insertAll table records keys =>
        by_cases hne : records = []
        · subst hne
          obtain ⟨name, hname, -⟩ := bind_eq_ok.mp h
          exact ⟨table, keys, name, rfl, hname⟩
        · have h := (planInsert_eq table hne).symm.trans h
          obtain ⟨name, -, h⟩ := bind_eq_ok.mp h
          obtain ⟨names, -, h⟩ := bind_eq_ok.mp h
          obtain ⟨st, -, h⟩ := bind_eq_ok.mp h
          cases h
      | execute sql => cases h
      | query | count | select | updateAll | deleteAll => cases hscope
  · rintro ⟨table, keys, name, rfl, hname⟩
    rw [planInsert_nil, hname]
    rfl

end Request

end Rowset
