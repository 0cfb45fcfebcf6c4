import Rowset.Proofs.Bindings
import Rowset.Proofs.Refusal
import Rowset.Proofs.Shapes
import Mathlib.Data.List.NodupEquivFin

/-!
# Values do not reach the text

Two requests are `Alike` when they differ at most in their values. They are planned side by side:
`Parallel` says that two runs fail with the same fault or come to related results, and is kept by
sequences of steps (`Parallel.bind`). What is related is the conditions (`Condition.Twins`), then
the selections, the statements and the plans: they are the same but for their values, and these
stand at the same places of what they have been made of, in order.

* `Filter.Alike.parallel`: no branch of the compilation looks at a value, except that a record tells
  the missing ones apart.
* `Builder.twins`: nor does the writing of a statement.
* `Request.plan_of_alike`: so the text of a statement is not told by values, and two statements
  differ only where the requests do.
-/

namespace Rowset

/-! ### Two runs beside each other -/

/-- Two runs go the same way: they fail with the same fault, or their results are related. -/
inductive Parallel {α β : Type} (R : α → β → Prop) : Except Fault α → Except Fault β → Prop where
  | ok {a : α} {b : β} (h : R a b) : Parallel R (.ok a) (.ok b)
  | error {fault : Fault} : Parallel R (.error fault) (.error fault)

namespace Parallel

variable {α β γ δ : Type}

theorem refl (x : Except Fault α) : Parallel (· = ·) x x := by
  cases x with
  | error fault => exact .error
  | ok a => exact .ok rfl

/-- Runs that go the same way still do after steps that do. -/
theorem bind {R : α → β → Prop} {S : γ → δ → Prop} {x : Except Fault α} {y : Except Fault β}
    {f : α → Except Fault γ} {g : β → Except Fault δ} (h : Parallel R x y)
    (hnext : ∀ a b, x = .ok a → y = .ok b → R a b → Parallel S (f a) (g b)) :
    Parallel S (x >>= f) (y >>= g) := by
  cases h with
  | ok h => exact hnext _ _ rfl rfl h
  | error => exact .error

/-- A step that both runs share. -/
theorem step {S : γ → δ → Prop} (x : Except Fault α) {f : α → Except Fault γ}
    {g : α → Except Fault δ} (hnext : ∀ a, x = .ok a → Parallel S (f a) (g a)) :
    Parallel S (x >>= f) (x >>= g) := by
  refine (refl x).bind fun a b ha _ hab => ?_
  subst hab
  exact hnext a ha

end Parallel

/-! ### Conditions without their values -/

namespace Sql

theorem bindings_map (g : Name → Name) (h : Value → Value) :
    ∀ pieces : List Piece, bindings (pieces.map (Piece.map g h)) = (bindings pieces).map h
  | [] => rfl
  | piece :: pieces => by
    rw [List.map_cons, bindings_cons, bindings_cons, List.map_append, bindings_map g h pieces]
    cases piece <;> rfl

/-- Other values are written with the same text. -/
theorem text_map (h : Value → Value) :
    ∀ pieces : List Piece, text (pieces.map (Piece.map id h)) = text pieces
  | [] => rfl
  | piece :: pieces => by
    rw [List.map_cons, text_cons, text_cons, text_map h pieces]
    cases piece <;> rfl

end Sql

theorem eq_nil_iff_of_length {α : Type} {xs ys : List α} (h : xs.length = ys.length) :
    xs = [] ↔ ys = [] := by
  rw [← List.length_eq_zero_iff, ← List.length_eq_zero_iff, h]

theorem isEmpty_eq_of_length {α : Type} {xs ys : List α} (h : xs.length = ys.length) :
    xs.isEmpty = ys.isEmpty := by
  rw [Bool.eq_iff_iff, List.isEmpty_iff, List.isEmpty_iff, eq_nil_iff_of_length h]

namespace Condition

theorem values_map (g : Name → Name) (h : Value → Value) (c : Condition) :
    (c.map g h).values = c.values.map h := by
  rw [values_eq_bindings, ← map_render, Sql.bindings_map, values_eq_bindings]

/-- A condition without its values. -/
def blank (c : Condition) : Condition :=
  c.map id fun _ => .null

theorem flatMap_values_blank (cs : List Condition) :
    (cs.map blank).flatMap values = (cs.flatMap values).map fun _ => .null := by
  induction cs with
  | nil => rfl
  | cons c cs ih =>
    rw [List.map_cons, List.flatMap_cons, List.flatMap_cons, List.map_append, ih, blank, values_map]

theorem map_null {vs vs' : List Value} (h : vs.length = vs'.length) :
    vs.map (fun _ => Value.null) = vs'.map fun _ => Value.null := by
  rw [List.map_const', List.map_const', h]

theorem blank_memberOf (column : Name) (negated : Bool) {vs vs' : List Value}
    (h : vs.length = vs'.length) :
    (memberOf column vs negated).blank = (memberOf column vs' negated).blank :=
  congrArg (memberOf column · negated) (map_null h)

theorem blank_fragment (sql : String) {vs vs' : List Value} (h : vs.length = vs'.length) :
    (fragment sql vs).blank = (fragment sql vs').blank :=
  congrArg (fragment sql) (map_null h)

theorem blank_oneOf (column : Name) {vs vs' : List Value} (h : vs.length = vs'.length) :
    (oneOf column vs).blank = (oneOf column vs').blank := by
  unfold oneOf
  rw [isEmpty_eq_of_length h]
  split_ifs
  · rfl
  · exact blank_memberOf column false h

theorem blank_noneOf (column : Name) {vs vs' : List Value} (h : vs.length = vs'.length) :
    (noneOf column vs).blank = (noneOf column vs').blank := by
  unfold noneOf
  rw [isEmpty_eq_of_length h]
  split_ifs
  · rfl
  · exact blank_memberOf column true h

/-- **Conditions are twins** when they differ in their values alone, and their values are some of
those that they have been made of, in the same places and in order. -/
structure Twins (vs vs' : List Value) (cs cs' : List Condition) : Prop where
  shape : cs.map blank = cs'.map blank
  even : vs.length = vs'.length
  place : ((cs.flatMap values).zip (cs'.flatMap values)).Sublist (vs.zip vs')

theorem length_values_of_blank {cs cs' : List Condition} (h : cs.map blank = cs'.map blank) :
    (cs.flatMap values).length = (cs'.flatMap values).length := by
  have hvalues := congrArg (fun ds => (ds.flatMap values).length) h
  simp only [flatMap_values_blank, List.length_map] at hvalues
  exact hvalues

namespace Twins

variable {vs vs' ws ws' : List Value} {cs cs' ds ds' : List Condition}

theorem nil (h : vs.length = vs'.length) : Twins vs vs' [] [] :=
  ⟨rfl, h, List.nil_sublist _⟩

/-- Conditions that differ in their values alone are twins made of these. -/
theorem of_blank (cs cs' : List Condition) (h : cs.map blank = cs'.map blank) :
    Twins (cs.flatMap values) (cs'.flatMap values) cs cs' :=
  ⟨h, length_values_of_blank h, List.Sublist.refl _⟩

theorem append (h : Twins vs vs' cs cs') (k : Twins ws ws' ds ds') :
    Twins (vs ++ ws) (vs' ++ ws') (cs ++ ds) (cs' ++ ds') := by
  refine ⟨?_, ?_, ?_⟩
  · rw [List.map_append, List.map_append, h.shape, k.shape]
  · rw [List.length_append, List.length_append, h.even, k.even]
  · rw [List.flatMap_append, List.flatMap_append, List.zip_append (length_values_of_blank h.shape),
      List.zip_append h.even]
    exact h.place.append k.place

/-- Twins stay so when more values are left behind. -/
theorem skip (h : Twins vs vs' cs cs') (heven : ws.length = ws'.length) :
    Twins (vs ++ ws) (vs' ++ ws') cs cs' := by
  have hboth := h.append (nil heven)
  rwa [List.append_nil, List.append_nil] at hboth

/-- What twins are put together to. -/
theorem of_flatMap (h : Twins vs vs' cs cs') (hshape : ds.map blank = ds'.map blank)
    (hvalues : ds.flatMap values = cs.flatMap values)
    (hvalues' : ds'.flatMap values = cs'.flatMap values) : Twins vs vs' ds ds' := by
  refine ⟨hshape, h.even, ?_⟩
  rw [hvalues, hvalues']
  exact h.place

theorem any (h : Twins vs vs' cs cs') : Twins vs vs' [.any cs] [.any cs'] := by
  refine h.of_flatMap ?_ ?_ ?_
  · rw [List.map_singleton, List.map_singleton, blank, blank, map_any, map_any]
    exact congrArg (fun members => [Condition.any members]) h.shape
  · rw [List.flatMap_singleton, values_any]
  · rw [List.flatMap_singleton, values_any]

theorem not {c c' : Condition} (h : Twins vs vs' [c] [c']) : Twins vs vs' [.not c] [.not c'] := by
  refine h.of_flatMap ?_ ?_ ?_
  · have hshape : c.blank = c'.blank := List.singleton_inj.mp h.shape
    exact congrArg (fun inner => [Condition.not inner]) hshape
  · rw [List.flatMap_singleton, List.flatMap_singleton, values_not]
  · rw [List.flatMap_singleton, List.flatMap_singleton, values_not]

/-- Twins come to twins. -/
theorem collapse (h : Twins vs vs' cs cs') (hlive : ∀ c ∈ cs, c.isEmpty = false)
    (hlive' : ∀ c ∈ cs', c.isEmpty = false) :
    Twins vs vs' (Filter.collapse cs).toList (Filter.collapse cs').toList := by
  refine h.of_flatMap ?_ (Filter.flatMap_collapse values_all hlive)
    (Filter.flatMap_collapse values_all hlive')
  calc (Filter.collapse cs).toList.map blank
      = ((Filter.collapse cs).map blank).toList := (Option.toList_map ..).symm
    _ = (Filter.collapse (cs.map blank)).toList :=
        congrArg Option.toList (Filter.collapse_map _ _ hlive).symm
    _ = (Filter.collapse (cs'.map blank)).toList := by rw [h.shape]
    _ = ((Filter.collapse cs').map blank).toList :=
        congrArg Option.toList (Filter.collapse_map _ _ hlive')
    _ = (Filter.collapse cs').toList.map blank := Option.toList_map ..

end Twins

end Condition

/-! ### Filters that differ in their values -/

namespace Filter

/-- Two entries of records differ at most in their values, of which both are missing or neither. -/
structure EntriesAlike (e e' : String × Value) : Prop where
  column : e.1 = e'.1
  null : e.2.isNull = e'.2.isNull

mutual

/-- **Two filters differ at most in their values:** lists of values are of the same length, and
records have missing values in the same columns. -/
inductive Alike : Filter → Filter → Prop where
  | properties {record record' : Record}
      (h : List.Forall₂ EntriesAlike record.entries record'.entries) :
      Alike (.properties record) (.properties record')
  | all {members members' : List Filter} (h : AlikeEach members members') :
      Alike (.all members) (.all members')
  | any {members members' : List Filter} (h : AlikeEach members members') :
      Alike (.any members) (.any members')
  | not {inner inner' : Filter} (h : Alike inner inner') : Alike (.not inner) (.not inner')
  | oneOf {column : String} {values values' : List Value} (h : values.length = values'.length) :
      Alike (.oneOf column values) (.oneOf column values')
  | noneOf {column : String} {values values' : List Value} (h : values.length = values'.length) :
      Alike (.noneOf column values) (.noneOf column values')
  | missing {column : String} : Alike (.missing column) (.missing column)
  | present {column : String} : Alike (.present column) (.present column)
  | between {column : String} {low high low' high' : Value} :
      Alike (.between column low high) (.between column low' high')
  | outside {column : String} {low high low' high' : Value} :
      Alike (.outside column low high) (.outside column low' high')
  | bounded {side : Side} {column : String} {value value' : Value} :
      Alike (.bounded side column value) (.bounded side column value')
  | fragment {sql : String} {bindings bindings' : List Value}
      (h : bindings.length = bindings'.length) :
      Alike (.fragment sql bindings) (.fragment sql bindings')
  | resolved {ticket : Nat} {f f' : Filter} (h : Alike f f') :
      Alike (.deferred ticket (.ok f)) (.deferred ticket (.ok f'))
  | failed {ticket : Nat} {fault : Fault} :
      Alike (.deferred ticket (.error fault)) (.deferred ticket (.error fault))

/-- The members of two groups differ at most in their values. -/
inductive AlikeEach : List Filter → List Filter → Prop where
  | nil : AlikeEach [] []
  | cons {member member' : Filter} {members members' : List Filter} (h : Alike member member')
      (hs : AlikeEach members members') : AlikeEach (member :: members) (member' :: members')

end

mutual

/-- **The values of a filter,** also those in parts that are not looked at when it is compiled. -/
def scalars : Filter → List Value
  | .properties record => record.entries.map (·.2)
  | .all members => memberScalars members
  | .any members => memberScalars members
  | .not inner => inner.scalars
  | .oneOf _ values => values
  | .noneOf _ values => values
  | .missing _ => []
  | .present _ => []
  | .between _ low high => [low, high]
  | .outside _ low high => [low, high]
  | .bounded _ _ value => [value]
  | .fragment _ bindings => bindings
  | .deferred _ (.ok f) => f.scalars
  | .deferred _ (.error _) => []

/-- The values of some filters. -/
def memberScalars : List Filter → List Value
  | [] => []
  | member :: members => member.scalars ++ memberScalars members

end

mutual

theorem Alike.length_scalars : ∀ {f f' : Filter}, f.Alike f' → f.scalars.length = f'.scalars.length
  | _, _, .properties h => by
    rw [scalars, scalars, List.length_map, List.length_map, h.length_eq]
  | _, _, .all h | _, _, .any h => by
    rw [scalars, scalars]
    exact h.length_scalars
  | _, _, .not h | _, _, .resolved h => by
    rw [scalars, scalars]
    exact h.length_scalars
  | _, _, .oneOf h | _, _, .noneOf h | _, _, .fragment h => by
    rw [scalars, scalars]
    exact h
  | _, _, .missing | _, _, .present | _, _, .failed => rfl
  | _, _, .between | _, _, .outside | _, _, .bounded => rfl

theorem AlikeEach.length_scalars : ∀ {members members' : List Filter},
    AlikeEach members members' → (memberScalars members).length = (memberScalars members').length
  | _, _, .nil => rfl
  | _, _, .cons h hs => by
    rw [memberScalars, memberScalars, List.length_append, List.length_append, h.length_scalars,
      hs.length_scalars]

end

/-! ### Compiling two filters -/

open Condition (Twins)

/-- Tests of one column that differ in their values alone are compiled in parallel. -/
theorem parallel_onColumn {column : String} {vs vs' : List Value} {test test' : Name → Condition}
    (hshape : ∀ name, (test name).blank = (test' name).blank)
    (hvalues : ∀ name, (test name).values = vs) (hvalues' : ∀ name, (test' name).values = vs') :
    Parallel (Twins vs vs') (onColumn column test).result (onColumn column test').result := by
  unfold onColumn Outcome.ofExcept
  cases Name.parse column with
  | error fault => exact .error
  | ok name =>
    have htwins := Twins.of_blank [test name] [test' name]
      (congrArg (fun c => [c]) (hshape name))
    rw [List.flatMap_singleton, List.flatMap_singleton, hvalues, hvalues'] at htwins
    exact .ok htwins

theorem twins_equals (name : Name) {v v' : Value} (h : v.isNull = v'.isNull) :
    Twins [v] [v'] [.equals name v] [.equals name v'] := by
  cases hnull : v.isNull with
  | true =>
    have hmissing : ∀ w : Value, w.isNull = true → Condition.equals name w = .null name false := by
      intro w hw
      cases w <;> first | rfl | cases hw
    rw [hmissing v hnull, hmissing v' (h ▸ hnull)]
    exact ⟨rfl, rfl, List.nil_sublist _⟩
  | false =>
    have hpresent : ∀ w : Value, w.isNull = false →
        Condition.equals name w = .compare name .equal w := by
      intro w hw
      cases w <;> first | rfl | cases hw
    rw [hpresent v hnull, hpresent v' (h ▸ hnull)]
    exact ⟨rfl, rfl, List.Sublist.refl _⟩

theorem twins_equalities {entries entries' : List (String × Value)}
    (h : List.Forall₂ EntriesAlike entries entries') (names : List Name) :
    Twins (entries.map (·.2)) (entries'.map (·.2))
      ((names.zip entries).map fun (name, entry) => .equals name entry.2)
      ((names.zip entries').map fun (name, entry) => .equals name entry.2) := by
  induction h generalizing names with
  | nil =>
    rw [List.zip_nil_right]
    exact .nil rfl
  | cons h hs ih =>
    cases names with
    | nil =>
      refine .nil ?_
      rw [List.length_map, List.length_map, List.length_cons, List.length_cons, hs.length_eq]
    | cons name names => exact (twins_equals name h.null).append (ih names)

theorem columns_eq {entries entries' : List (String × Value)}
    (h : List.Forall₂ EntriesAlike entries entries') :
    entries.map (·.1) = entries'.map (·.1) := by
  induction h with
  | nil => rfl
  | cons h _ ih => rw [List.map_cons, List.map_cons, ih, h.column]

theorem parallel_equalities {record record' : Record}
    (h : List.Forall₂ EntriesAlike record.entries record'.entries) :
    Parallel (Twins (record.entries.map (·.2)) (record'.entries.map (·.2)))
      (equalities record) (equalities record') := by
  rw [equalities_eq, equalities_eq, Record.columns, Record.columns, columns_eq h]
  exact .step _ fun names _ => .ok (twins_equalities h names)

/-- The branches of two disjunctions: in both one of them restricts nothing, or they are twins. -/
inductive TwinBranches (vs vs' : List Value) :
    Option (List Condition) → Option (List Condition) → Prop where
  | none (heven : vs.length = vs'.length) : TwinBranches vs vs' none none
  | some {cs cs' : List Condition} (h : Twins vs vs' cs cs') :
      TwinBranches vs vs' (some cs) (some cs')

/-- Collapsed twins: both are nothing, or both are conditions that are twins. -/
theorem collapse_twins {vs vs' : List Value} {cs cs' : List Condition} (h : Twins vs vs' cs cs')
    (hlive : ∀ c ∈ cs, c.isEmpty = false) (hlive' : ∀ c ∈ cs', c.isEmpty = false) :
    (collapse cs = none ∧ collapse cs' = none) ∨
      ∃ c c', collapse cs = some c ∧ collapse cs' = some c' ∧ Twins vs vs' [c] [c'] := by
  have htwins := h.collapse hlive hlive'
  cases hc : collapse cs with
  | none =>
    cases hc' : collapse cs' with
    | none => exact .inl ⟨rfl, rfl⟩
    | some c' =>
      rw [hc, hc'] at htwins
      cases htwins.shape
  | some c =>
    cases hc' : collapse cs' with
    | none =>
      rw [hc, hc'] at htwins
      cases htwins.shape
    | some c' =>
      rw [hc, hc'] at htwins
      exact .inr ⟨c, c', rfl, rfl, htwins⟩

mutual

/-- **Filters that differ in their values are compiled in parallel,** to conditions that differ in
their values alone. -/
theorem Alike.parallel : ∀ {f f' : Filter}, f.Alike f' →
    Parallel (Twins f.scalars f'.scalars) f.conjuncts.result f'.conjuncts.result
  | _, _, .properties h => by
    rw [scalars, scalars, conjuncts, conjuncts]
    exact parallel_equalities h
  | _, _, .all h => by
    rw [scalars, scalars, conjuncts, conjuncts]
    exact h.parallel_memberConditions
  | _, _, .any h => by
    rw [scalars, scalars, conjuncts, conjuncts, Outcome.result_bind, Outcome.result_bind]
    refine h.parallel_branches.bind fun o o' _ _ htwins => ?_
    cases htwins with
    | none heven => exact .ok (.nil heven)
    | @some cs cs' htwins =>
      cases cs with
      | nil =>
        cases cs' with
        | nil => exact .ok (.nil htwins.even)
        | cons => cases htwins.shape
      | cons c cs =>
        cases cs' with
        | nil => cases htwins.shape
        | cons c' cs' => exact .ok htwins.any
  | _, _, .not h => by
    rw [scalars, scalars, conjuncts, conjuncts, Outcome.result_bind, Outcome.result_bind]
    refine h.parallel.bind fun ds ds' hds hds' htwins => ?_
    rcases collapse_twins htwins (adds_of_result _ _ hds).live (adds_of_result _ _ hds').live with
      ⟨hc, hc'⟩ | ⟨c, c', hc, hc', htwins⟩
    · rw [hc, hc']
      exact .ok ⟨rfl, htwins.even, List.nil_sublist _⟩
    · rw [hc, hc']
      exact .ok htwins.not
  | _, _, .oneOf h => by
    rw [scalars, scalars, conjuncts, conjuncts]
    exact parallel_onColumn (fun name => Condition.blank_oneOf name h)
      (fun name => Condition.values_oneOf name _) (fun name => Condition.values_oneOf name _)
  | _, _, .noneOf h => by
    rw [scalars, scalars, conjuncts, conjuncts]
    exact parallel_onColumn (fun name => Condition.blank_noneOf name h)
      (fun name => Condition.values_noneOf name _) (fun name => Condition.values_noneOf name _)
  | _, _, .missing | _, _, .present => by
    rw [scalars, conjuncts]
    exact parallel_onColumn (fun _ => rfl) (fun _ => rfl) (fun _ => rfl)
  | _, _, .between | _, _, .outside | _, _, .bounded => by
    rw [scalars, scalars, conjuncts, conjuncts]
    exact parallel_onColumn (fun _ => rfl) (fun _ => rfl) (fun _ => rfl)
  | _, _, @Alike.fragment sql vs vs' h => by
    have htwins := Twins.of_blank [.fragment sql vs] [.fragment sql vs']
      (congrArg (fun c => [c]) (Condition.blank_fragment sql h))
    rw [List.flatMap_singleton, List.flatMap_singleton, Condition.values_fragment,
      Condition.values_fragment] at htwins
    rw [scalars, scalars, conjuncts, conjuncts]
    exact .ok htwins
  | _, _, .resolved h => by
    rw [scalars, scalars, conjuncts, conjuncts]
    exact h.parallel
  | _, _, .failed => by
    rw [conjuncts]
    exact .error

theorem AlikeEach.parallel_memberConditions : ∀ {members members' : List Filter},
    AlikeEach members members' → Parallel (Twins (memberScalars members) (memberScalars members'))
      (memberConditions members).result (memberConditions members').result
  | _, _, .nil => .ok (.nil rfl)
  | _, _, .cons h hs => by
    rw [memberScalars, memberScalars, memberConditions, memberConditions, Outcome.result_bind,
      Outcome.result_bind]
    refine h.parallel.bind fun ds ds' hds hds' htwins => ?_
    rw [Outcome.result_bind, Outcome.result_bind]
    refine hs.parallel_memberConditions.bind fun rest rest' _ _ hrest => ?_
    have hmember := htwins.collapse (adds_of_result _ _ hds).live (adds_of_result _ _ hds').live
    exact .ok (hmember.append hrest)

theorem AlikeEach.parallel_branches : ∀ {members members' : List Filter},
    AlikeEach members members' →
      Parallel (TwinBranches (memberScalars members) (memberScalars members'))
        (branches members).result (branches members').result
  | _, _, .nil => .ok (.some (.nil rfl))
  | _, _, .cons h hs => by
    rw [memberScalars, memberScalars, branches, branches, Outcome.result_bind, Outcome.result_bind]
    refine h.parallel.bind fun ds ds' hds hds' htwins => ?_
    rcases collapse_twins htwins (adds_of_result _ _ hds).live (adds_of_result _ _ hds').live with
      ⟨hc, hc'⟩ | ⟨c, c', hc, hc', hmember⟩
    · rw [hc, hc']
      refine .ok (.none ?_)
      rw [List.length_append, List.length_append, h.length_scalars, hs.length_scalars]
    · rw [hc, hc']
      dsimp only
      rw [Outcome.result_bind, Outcome.result_bind]
      refine hs.parallel_branches.bind fun o o' _ _ hrest => ?_
      cases hrest with
      | none heven =>
        refine .ok (.none ?_)
        rw [List.length_append, List.length_append, h.length_scalars, heven]
      | some hrest => exact .ok (.some (hmember.append hrest))

end

end Filter

/-! ### Scopes -/

/-- A selection without its values. -/
def Selection.blank (s : Selection) : Selection :=
  s.map id fun _ => .null

/-- Two selections are twins when their restrictions are, and they are otherwise the same. -/
structure Selection.Twins (vs vs' : List Value) (s s' : Selection) : Prop where
  shape : s.blank = s'.blank
  restriction : Condition.Twins vs vs' s.restriction.members s'.restriction.members

namespace Scope

/-- **Two scopes differ at most in the values of their filters.** -/
structure Alike (scope scope' : Scope) : Prop where
  table : scope.table = scope'.table
  filter : scope.wholeFilter.Alike scope'.wholeFilter
  order : scope.order = scope'.order
  limit : scope.limit = scope'.limit
  skip : scope.skip = scope'.skip

variable {scope scope' : Scope}

theorem Alike.validate_eq (h : scope.Alike scope') : scope.validate = scope'.validate := by
  unfold validate fault? blankKey?
  rw [h.table, h.order]

/-- Scopes that differ in their values come to selections that do. -/
theorem Alike.parallel (h : scope.Alike scope') :
    Parallel (Selection.Twins scope.wholeFilter.scalars scope'.wholeFilter.scalars)
      scope.selection.result scope'.selection.result := by
  rw [result_selection, result_selection, h.validate_eq, h.table, h.limit, h.skip]
  refine .step _ fun _ _ => .step _ fun table _ => ?_
  refine h.filter.parallel.bind fun cs cs' hcs hcs' ht => ?_
  rw [Filter.ofList_of_live (Filter.adds_of_result _ _ hcs).live,
    Filter.ofList_of_live (Filter.adds_of_result _ _ hcs').live]
  refine .ok ⟨?_, ht⟩
  have hmembers : Condition.mapMembers id (fun _ => .null) cs =
      Condition.mapMembers id (fun _ => .null) cs' := by
    rw [Condition.mapMembers_eq_map, Condition.mapMembers_eq_map]
    exact ht.shape
  rw [Selection.blank, Selection.blank, Selection.map, Selection.map, hmembers]

end Scope

/-! ### Statements -/

/-- **Two statements are twins** when they have one text, and their values are some of those that
they have been made of, in the same places and in order. -/
structure Statement.Twins (vs vs' : List Value) (st st' : Statement) : Prop where
  sql : st.sql = st'.sql
  length : st.bindings.length = st'.bindings.length
  place : (st.bindings.zip st'.bindings).Sublist (vs.zip vs')

/-- Every position of twins holds what stands at one place of the values they are made of. -/
theorem Statement.Twins.exists_place {vs vs' : List Value} {st st' : Statement}
    (h : st.Twins vs vs' st') :
    ∃ place : ℕ ↪o ℕ, ∀ k < st.bindings.length, ∃ v v', st.bindings[k]? = some v ∧
      vs[place k]? = some v ∧ st'.bindings[k]? = some v' ∧ vs'[place k]? = some v' := by
  obtain ⟨place, hplace⟩ := List.sublist_iff_exists_orderEmbedding_getElem?_eq.mp h.place
  refine ⟨place, fun k hk => ?_⟩
  have hk' : k < st'.bindings.length := h.length ▸ hk
  have hboth : (st.bindings.zip st'.bindings)[k]? = some (st.bindings[k], st'.bindings[k]) :=
    List.getElem?_zip_eq_some.mpr ⟨List.getElem?_eq_getElem hk, List.getElem?_eq_getElem hk'⟩
  rw [hplace] at hboth
  obtain ⟨hv, hv'⟩ := List.getElem?_zip_eq_some.mp hboth
  exact ⟨_, _, List.getElem?_eq_getElem hk, hv, List.getElem?_eq_getElem hk', hv'⟩

namespace Builder

/-- The layout of what is built, without values. -/
def blank (b : Builder) : Layout :=
  b.layout.map id fun _ => .null

theorem render_blank (b : Builder) :
    b.blank.render = b.render.map (Sql.Piece.map id fun _ => .null) := by
  rw [blank, ← Layout.map_render, render_layout]

theorem sql_eq_text_blank (b : Builder) : b.statement.sql = Sql.text b.blank.render := by
  rw [render_blank, Sql.text_map]
  rfl

theorem length_bindings_blank (b : Builder) :
    b.statement.bindings.length = (Sql.bindings b.blank.render).length := by
  rw [render_blank, Sql.bindings_map, List.length_map]
  rfl

/-- What is laid out in the same way, up to its values, makes statements that are twins. -/
theorem twins {vs vs' : List Value} (b b' : Builder) (h : b.blank = b'.blank)
    (hplace : (b.values.zip b'.values).Sublist (vs.zip vs')) :
    Statement.Twins vs vs' b.statement b'.statement where
  sql := by rw [sql_eq_text_blank, sql_eq_text_blank, h]
  length := by rw [length_bindings_blank, length_bindings_blank, h]
  place := by
    rw [bindings_statement, bindings_statement]
    exact hplace

end Builder

/-! ### Requests -/

/-- Two plans are twins when nothing is sent, or statements that are twins. -/
inductive Plan.Twins (vs vs' : List Value) : Plan → Plan → Prop where
  | nothing : Twins vs vs' .nothing .nothing
  | send {st st' : Statement} (h : st.Twins vs vs' st') : Twins vs vs' (.send st) (.send st')

namespace Insert

theorem keys_eq {records records' : List Record}
    (h : records.map Record.columns = records'.map Record.columns) :
    keys records = keys records' := by
  have hkeys : ∀ rs : List Record, keys rs = (Keyed.ofList ((rs.map Record.columns).flatMap
      fun columns => columns.map fun column => (column, ()))).map (·.1) := by
    intro rs
    rw [keys, List.flatMap_map]
  rw [hkeys, hkeys, h]

/-- The check of an addition looks at how many records and columns there are. -/
theorem fault?_eq_of_length (table : Name) (columns : List (String × Name))
    {records records' : List Record} (h : records.length = records'.length) :
    (Insert.mk table columns records true).fault? =
      (Insert.mk table columns records' true).fault? := by
  unfold fault?
  dsimp only
  rw [isEmpty_eq_of_length h, h]

end Insert

/-- Which cells of a record are there is told by its columns. -/
theorem Record.blank_get? (r : Record) (key : String) :
    (r.get? key).map (fun _ => Value.null) = if key ∈ r.columns then some .null else none := by
  unfold get? columns
  induction r.entries with
  | nil => rfl
  | cons entry entries ih =>
    rw [List.lookup_cons, List.map_cons]
    by_cases h : key = entry.1
    · rw [beq_iff_eq.mpr h, if_pos (List.mem_cons.mpr (.inl h))]
      rfl
    · have hmem : key ∈ entry.1 :: entries.map (·.1) ↔ key ∈ entries.map (·.1) := by
        rw [List.mem_cons, or_iff_right h]
      rw [beq_false_of_ne h, if_congr hmem rfl rfl]
      exact ih

namespace Request

/-- **Two requests differ at most in values:** in those of their filters, in the attributes for the
same columns, and in the cells of records with the same columns. -/
inductive Alike : Request → Request → Prop where
  | query {scope scope' : Scope} (h : scope.Alike scope') : Alike (.query scope) (.query scope')
  | count {scope scope' : Scope} (h : scope.Alike scope') : Alike (.count scope) (.count scope')
  | select {scope scope' : Scope} {columns : List String} (h : scope.Alike scope') :
      Alike (.select scope columns) (.select scope' columns)
  | updateAll {scope scope' : Scope} {attributes attributes' : Record} (h : scope.Alike scope')
      (hcolumns : attributes.columns = attributes'.columns) :
      Alike (.updateAll scope attributes) (.updateAll scope' attributes')
  | deleteAll {scope scope' : Scope} (h : scope.Alike scope') :
      Alike (.deleteAll scope) (.deleteAll scope')
  | insertAll {table : String} {records records' : List Record} {keys : List (String × KeyKind)}
      (h : records.map Record.columns = records'.map Record.columns) :
      Alike (.insertAll table records keys) (.insertAll table records' keys)
  | execute {sql : String} : Alike (.execute sql) (.execute sql)

/-- **The values of a request:** the attributes in front of those of the filter, or the cells of the
records, one record after the other. -/
def scalars : Request → List Value
  | .query scope => scope.wholeFilter.scalars
  | .count scope => scope.wholeFilter.scalars
  | .select scope _ => scope.wholeFilter.scalars
  | .updateAll scope attributes => attributes.entries.map (·.2) ++ scope.wholeFilter.scalars
  | .deleteAll scope => scope.wholeFilter.scalars
  | .insertAll _ records _ => records.flatMap fun r => r.entries.map (·.2)
  | .execute _ => []

theorem parallel_planSelect {scope scope' : Scope} (h : scope.Alike scope')
    (columns : List String) :
    Parallel (Plan.Twins scope.wholeFilter.scalars scope'.wholeFilter.scalars)
      (planSelect scope columns) (planSelect scope' columns) := by
  rw [planSelect_eq, planSelect_eq, h.order]
  refine h.parallel.bind fun s s' _ _ hs => .step _ fun names _ => .step _ fun order _ => ?_
  refine .ok (.send (Builder.twins (.select ⟨s, names, _⟩) (.select ⟨s', names, _⟩) ?_
    hs.restriction.place))
  exact congrArg (fun t => Layout.select ⟨t, _, _⟩) hs.shape

theorem blank_assignments (names : List Name) {vs vs' : List Value} (h : vs.length = vs'.length) :
    (names.zip vs).map (fun pair => (pair.1, Value.null)) =
      (names.zip vs').map fun pair => (pair.1, Value.null) := by
  have hzip : ∀ ws : List Value, (names.zip ws).map (fun pair => (pair.1, Value.null)) =
      names.zip (ws.map fun _ => .null) := by
    intro ws
    rw [List.zip_map_right]
    rfl
  rw [hzip, hzip, Condition.map_null h]

theorem length_entries_of_columns {r r' : Record} (h : r.columns = r'.columns) :
    r.entries.length = r'.entries.length := by
  have hlength := congrArg List.length h
  rwa [Record.columns, Record.columns, List.length_map, List.length_map] at hlength

theorem parallel_planUpdate {scope scope' : Scope} {attributes attributes' : Record}
    (h : scope.Alike scope') (hcolumns : attributes.columns = attributes'.columns) :
    Parallel (Plan.Twins (attributes.entries.map (·.2) ++ scope.wholeFilter.scalars)
        (attributes'.entries.map (·.2) ++ scope'.wholeFilter.scalars))
      (updateAll scope attributes).plan (updateAll scope' attributes').plan := by
  have hentries := length_entries_of_columns hcolumns
  have hnil := eq_nil_iff_of_length hentries
  by_cases hempty : attributes.entries = []
  · rw [plan_updateAll_of_entries_eq_nil scope hempty,
      plan_updateAll_of_entries_eq_nil scope' (hnil.mp hempty)]
    exact .error
  · have hne' := hempty ∘ hnil.mpr
    have hlength :
        (attributes.entries.map (·.2)).length = (attributes'.entries.map (·.2)).length := by
      rw [List.length_map, List.length_map, hentries]
    show Parallel _ (planUpdate scope attributes) (planUpdate scope' attributes')
    rw [planUpdate_eq scope hempty, planUpdate_eq scope' hne', ← hcolumns]
    refine h.parallel.bind fun s s' _ _ hs => .step _ fun names hnames => ?_
    have hnames := Name.length_of_parseAll hnames
    refine .ok (.send (Builder.twins (.update ⟨s, _, true⟩) (.update ⟨s', _, true⟩) ?_ ?_))
    · show Layout.update ⟨s.blank, _, true⟩ = Layout.update ⟨s'.blank, _, true⟩
      rw [hs.shape]
      exact congrArg (fun assignments => Layout.update ⟨s'.blank, assignments, true⟩)
        (blank_assignments names hlength)
    · show (((names.zip (attributes.entries.map (·.2))).map (·.2) ++ s.values).zip
        ((names.zip (attributes'.entries.map (·.2))).map (·.2) ++ s'.values)).Sublist _
      have hle : (attributes.entries.map (·.2)).length ≤ names.length := by
        rw [hnames, Record.columns, List.length_map, List.length_map]
      rw [List.map_snd_zip hle, List.map_snd_zip (hlength ▸ hle), List.zip_append hlength,
        List.zip_append hlength]
      exact (List.Sublist.refl _).append hs.restriction.place

/-- Records with the same columns have the same cells, up to values. -/
theorem blank_cells (columns : List (String × Name)) {records records' : List Record}
    (h : records.map Record.columns = records'.map Record.columns) :
    (records.map fun r => columns.map fun column => r.get? column.1).map
        (List.map (Option.map fun _ => Value.null)) =
      (records'.map fun r => columns.map fun column => r.get? column.1).map
        (List.map (Option.map fun _ => Value.null)) := by
  have hcells : ∀ rs : List Record,
      (rs.map fun r => columns.map fun column => r.get? column.1).map
          (List.map (Option.map fun _ => Value.null)) =
        (rs.map Record.columns).map fun present =>
          columns.map fun column => if column.1 ∈ present then some Value.null else none := by
    intro rs
    simp only [List.map_map, Function.comp_def, Record.blank_get?]
  rw [hcells, hcells, h]

theorem parallel_planInsert (table : String) {records records' : List Record}
    (h : records.map Record.columns = records'.map Record.columns) :
    Parallel (Plan.Twins (records.flatMap fun r => r.entries.map (·.2))
        (records'.flatMap fun r => r.entries.map (·.2)))
      (planInsert table records) (planInsert table records') := by
  have hlength : records.length = records'.length := by
    have hcolumns := congrArg List.length h
    rwa [List.length_map, List.length_map] at hcolumns
  have hnil : records = [] ↔ records' = [] := eq_nil_iff_of_length hlength
  by_cases hempty : records = []
  · have hempty' := hnil.mp hempty
    subst hempty hempty'
    exact .step (Name.parse table) fun _ _ => .ok .nothing
  · have hne' := hempty ∘ hnil.mpr
    have hkeys := Insert.keys_eq h
    rw [planInsert_eq table hempty, planInsert_eq table hne', ← hkeys]
    refine .step _ fun name _ => .step _ fun names hnames => ?_
    have hnames := Name.length_of_parseAll hnames
    unfold Insert.statement
    rw [Insert.fault?_eq_of_length name _ hlength]
    cases (Insert.mk name ((Insert.keys records).zip names) records' true).fault? with
    | some fault => exact .error
    | none =>
      refine .ok (.send (Builder.twins (.insert ⟨name, _, records, true⟩)
        (.insert ⟨name, _, records', true⟩) ?_ ?_))
      · exact congrArg (fun cells => Layout.insert name _ cells true)
          (blank_cells ((Insert.keys records).zip names) h)
      · have hvalues' :
            (Builder.insert ⟨name, (Insert.keys records).zip names, records', true⟩).values =
              records'.flatMap fun r => r.entries.map (·.2) := by
          rw [hkeys] at hnames ⊢
          exact Builder.values_insert hnames
        rw [Builder.values_insert hnames, hvalues']

/-- Requests that differ in values are planned in parallel. -/
theorem Alike.parallel {r r' : Request} (h : r.Alike r') :
    Parallel (Plan.Twins r.scalars r'.scalars) r.plan r'.plan := by
  cases h with
  | query h => exact parallel_planSelect h []
  | count h =>
    refine h.parallel.bind fun s s' _ _ hs => .ok (.send (Builder.twins (.count (.ofSelection s))
      (.count (.ofSelection s')) ?_ hs.restriction.place))
    exact congrArg (Layout.count Sql.countName Sql.nestedName) hs.shape
  | select h => exact parallel_planSelect h _
  | updateAll h hcolumns => exact parallel_planUpdate h hcolumns
  | deleteAll h =>
    refine h.parallel.bind fun s s' _ _ hs => .ok (.send (Builder.twins (.delete ⟨s, true⟩)
      (.delete ⟨s', true⟩) ?_ hs.restriction.place))
    exact congrArg (fun t => Layout.delete ⟨t, true⟩) hs.shape
  | insertAll h => exact parallel_planInsert _ h
  | execute => exact .error

/-- **Values do not reach the text.** Two requests that differ in values alone are both refused for
the same fault, or nothing is sent for both, or statements with the same text and equally many
values are sent. Every position of these holds the value that stands at one place of the one request
and of the other, so the statements differ there only if the requests do. -/
theorem plan_of_alike {r r' : Request} (h : r.Alike r') :
    (∃ fault, r.plan = .error fault ∧ r'.plan = .error fault) ∨
      (r.plan = .ok .nothing ∧ r'.plan = .ok .nothing) ∨
      ∃ st st' : Statement, r.plan = .ok (.send st) ∧ r'.plan = .ok (.send st') ∧
        st.sql = st'.sql ∧ st.bindings.length = st'.bindings.length ∧
        ∃ place : ℕ ↪o ℕ, ∀ k < st.bindings.length, ∃ v v',
          st.bindings[k]? = some v ∧ r.scalars[place k]? = some v ∧
            st'.bindings[k]? = some v' ∧ r'.scalars[place k]? = some v' := by
  have hparallel := h.parallel
  generalize r.plan = x at hparallel ⊢
  generalize r'.plan = x' at hparallel ⊢
  cases hparallel with
  | error => exact .inl ⟨_, rfl, rfl⟩
  | ok h =>
    cases h with
    | nothing => exact .inr (.inl ⟨rfl, rfl⟩)
    | send h => exact .inr (.inr ⟨_, _, rfl, rfl, h.sql, h.length, h.exists_place⟩)

/-- A change with a branch that is not looked at, a missing value and a deferred filter. -/
def sampleUpdate (a b : Value) (c d : List Value) (dropped : Value) : Request :=
  .updateAll
    { Scope.ofTable "t" with
      filter := some (.not (.all
        [.equals "a" a, .equals "z" .null,
         .any [.all [], .bounded .above "no name" dropped],
         .deferred 3 (.ok (.fragment "x = ? OR y = ?" c)),
         .oneOf "b" d]))
      limit := some 2 }
    (.ofList [("n", b)])

/-- The text of the statement for each of these changes. -/
def sampleText : String :=
  "UPDATE \"t\" SET \"n\" = ? WHERE ctid IN (SELECT ctid FROM \"t\" WHERE NOT (\"a\" = ? AND " ++
    "\"z\" IS NULL AND (x = ? OR y = ?) AND \"b\" IN (?)) LIMIT 2) RETURNING \"t\".*"

theorem plan_of_alike_sampleUpdate :
    (sampleUpdate (.int 1) .null [.text "?", .null] [.null] .null).Alike
      (sampleUpdate (.text "'; --") (.bool true) [.null, .int 7] [.int 2] (.int 9)) ∧
    ∃ st st' : Statement,
      (sampleUpdate (.int 1) .null [.text "?", .null] [.null] .null).plan = .ok (.send st) ∧
      (sampleUpdate (.text "'; --") (.bool true) [.null, .int 7] [.int 2] (.int 9)).plan =
        .ok (.send st') ∧
      st = ⟨sampleText, [.null, .int 1, .text "?", .null, .null]⟩ ∧ st'.sql = sampleText ∧
      st'.bindings = [.bool true, .text "'; --", .null, .int 7, .int 2] := by
  have halike : (sampleUpdate (.int 1) .null [.text "?", .null] [.null] .null).Alike
      (sampleUpdate (.text "'; --") (.bool true) [.null, .int 7] [.int 2] (.int 9)) :=
    .updateAll ⟨rfl, .not (.all (.cons (.properties (.cons ⟨rfl, rfl⟩ .nil))
      (.cons (.properties (.cons ⟨rfl, rfl⟩ .nil))
        (.cons (.any (.cons (.all .nil) (.cons .bounded .nil)))
          (.cons (.resolved (.fragment rfl)) (.cons (.oneOf rfl) .nil)))))), rfl, rfl, rfl⟩ rfl
  have hplan : (sampleUpdate (.int 1) .null [.text "?", .null] [.null] .null).plan =
      .ok (.send ⟨sampleText, [.null, .int 1, .text "?", .null, .null]⟩) := by
    decide +kernel
  have hbindings : ∀ st : Statement,
      (sampleUpdate (.text "'; --") (.bool true) [.null, .int 7] [.int 2] (.int 9)).plan =
        .ok (.send st) → st.bindings = [.bool true, .text "'; --", .null, .int 7, .int 2] := by
    intro st hst
    have hgot : ((sampleUpdate (.text "'; --") (.bool true) [.null, .int 7] [.int 2]
        (.int 9)).plan.map fun
          | .send st => st.bindings
          | .nothing => []) = .ok [.bool true, .text "'; --", .null, .int 7, .int 2] := by
      decide +kernel
    rw [hst] at hgot
    exact Except.ok.inj hgot
  refine ⟨halike, ?_⟩
  rcases plan_of_alike halike with ⟨fault, h, -⟩ | ⟨h, -⟩ | ⟨st, st', h, h', hsql, -⟩
  · rw [hplan] at h
    cases h
  · rw [hplan] at h
    cases h
  · have hst : ⟨sampleText, [.null, .int 1, .text "?", .null, .null]⟩ = st := by
      rw [hplan] at h
      cases h
      rfl
    subst hst
    exact ⟨_, st', hplan, h', rfl, hsql.symm, hbindings st' h'⟩

end Request

end Rowset
