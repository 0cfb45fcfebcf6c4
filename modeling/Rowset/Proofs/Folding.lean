import Rowset.Proofs.Bindings
import Rowset.Proofs.Planning

/-!
# Folding a filter into a restriction

A filter can be folded into a restriction that is there already, which is handed on from step to
step (`Filter.foldInto`), or compiled on its own to one condition, by which the selection is
restricted afterwards. The first way adds the conditions of a conjunction one by one and the second
one as a group, so the restrictions differ in their shape.

`foldInto_eq` reduces the first way to the conditions that the filter adds: the induction is over
the filter, with any restriction to start from. The two ways then agree on everything that does not
depend on the grouping: on failures, on the values and their order, and on the rows
(`Selection.applyFilter_agrees`).
-/

namespace Rowset

namespace Filter

/-! ### Folding -/

/-- Takes a test of a column into a restriction. -/
def foldTest (column : String) (test : Name → Condition) (g : Conjunction) : Outcome Conjunction :=
  .ofExcept ((Name.parse column).map fun name => g.and (test name))

mutual

/-- **Folds a filter into a restriction.** The members of a group and what is negated are folded
into a restriction of their own, which is taken in as one condition. -/
def foldInto : Filter → Conjunction → Outcome Conjunction
  | .properties record, g => .ofExcept (record.entries.foldlM (fun g (column, value) => do
      let name ← Name.parse column
      pure (g.and (.equals name value))) g)
  | .all members, g => foldMembers members g
  | .any members, g => do
    match ← foldBranches members [] with
    | some (c :: cs) => pure (g.and (.any (c :: cs)))
    | _ => pure g
  | .not inner, g => do
    match (← inner.foldInto .empty).condition? with
    | some c => pure (g.and (.not c))
    | none => pure (g.and .never)
  | .oneOf column values, g => foldTest column (fun name => .oneOf name values) g
  | .noneOf column values, g => foldTest column (fun name => .noneOf name values) g
  | .missing column, g => foldTest column (fun name => .null name false) g
  | .present column, g => foldTest column (fun name => .null name true) g
  | .between column low high, g => foldTest column (fun name => .between name low high false) g
  | .outside column low high, g => foldTest column (fun name => .between name low high true) g
  | .bounded side column value, g =>
    foldTest column (fun name => .compare name (.bound side) value) g
  | .fragment sql bindings, g => pure (g.and (.fragment sql bindings))
  | .deferred ticket (.ok f), g => (f.foldInto g).after ticket
  | .deferred ticket (.error fault), _ => ⟨[ticket], .error fault⟩

/-- Takes the members of a conjunction in, one after the other. -/
def foldMembers : List Filter → Conjunction → Outcome Conjunction
  | [], g => pure g
  | member :: members, g => do
    match (← member.foldInto .empty).condition? with
    | some c => foldMembers members (g.and c)
    | none => foldMembers members g

/-- Collects the conditions of the branches of a disjunction behind some that have been collected,
or nothing if a branch restricts nothing. -/
def foldBranches : List Filter → List Condition → Outcome (Option (List Condition))
  | [], cs => pure (some cs)
  | member :: members, cs => do
    match (← member.foldInto .empty).condition? with
    | some c => foldBranches members (cs ++ [c])
    | none => pure none

end

theorem foldTest_eq (column : String) (test : Name → Condition) (g : Conjunction) :
    foldTest column test g =
      onColumn column test >>= fun cs => pure (cs.foldl Conjunction.and g) := by
  unfold foldTest onColumn
  cases Name.parse column with
  | error fault => rfl
  | ok name => rfl

theorem foldlM_equalities (entries : List (String × Value)) (g : Conjunction) :
    (entries.foldlM (fun g (column, value) => do
      let name ← Name.parse column
      pure (g.and (.equals name value))) g : Except Fault Conjunction) =
      (entries.mapM fun (column, value) => do
        let name ← Name.parse column
        pure (Condition.equals name value)).map fun cs : List Condition =>
        cs.foldl Conjunction.and g := by
  induction entries generalizing g with
  | nil => rfl
  | cons entry entries ih =>
    obtain ⟨column, value⟩ := entry
    rw [List.foldlM_cons, List.mapM_cons]
    dsimp only
    cases Name.parse column with
    | error fault => rfl
    | ok name =>
      refine (ih _).trans ?_
      show Except.map _ _ = Except.map _ (List.mapM _ entries >>= _)
      cases List.mapM (m := Except Fault) _ entries with
      | error fault => rfl
      | ok cs => rfl

mutual

/-- **Folding a filter into a restriction takes in the conditions that the filter adds.** -/
theorem foldInto_eq : ∀ (f : Filter) (g : Conjunction),
    f.foldInto g = f.conjuncts >>= fun cs => pure (cs.foldl Conjunction.and g)
  | .properties record, g => by
    rw [foldInto, conjuncts, equalities, foldlM_equalities]
    cases List.mapM (m := Except Fault) _ record.entries with
    | error fault => rfl
    | ok cs => rfl
  | .all members, g => by
    rw [foldInto, conjuncts]
    exact foldMembers_eq members g
  | .any members, g => by
    rw [foldInto, conjuncts, foldBranches_eq, Outcome.bind_assoc, Outcome.bind_assoc]
    refine Outcome.bind_congr fun parts _ => ?_
    rcases parts with _ | _ | ⟨c, cs⟩
    · rfl
    · rfl
    · rfl
  | .not inner, g => by
    rw [foldInto, conjuncts, foldInto_eq inner, Outcome.bind_assoc, Outcome.bind_assoc]
    refine Outcome.bind_congr fun ds _ => ?_
    show (match collapse ds with | some c => _ | none => _) =
      (match collapse ds with | some c => _ | none => _) >>= _
    cases collapse ds with
    | none => rfl
    | some c => rfl
  | .oneOf .., g | .noneOf .., g | .missing _, g | .present _, g | .between .., g
  | .outside .., g | .bounded .., g => by
    rw [foldInto, conjuncts]
    exact foldTest_eq _ _ g
  | .fragment .., g => by
    rw [foldInto, conjuncts]
    rfl
  | .deferred ticket (.ok f), g => by
    rw [foldInto, conjuncts, foldInto_eq f g, Outcome.after_bind]
  | .deferred ticket (.error fault), g => by
    rw [foldInto, conjuncts]
    rfl

theorem foldMembers_eq : ∀ (members : List Filter) (g : Conjunction),
    foldMembers members g =
      memberConditions members >>= fun cs => pure (cs.foldl Conjunction.and g)
  | [], g => by
    rw [foldMembers, memberConditions]
    rfl
  | member :: members, g => by
    rw [foldMembers, memberConditions, foldInto_eq member, Outcome.bind_assoc, Outcome.bind_assoc]
    refine Outcome.bind_congr fun ds _ => ?_
    rw [Outcome.pure_bind, Outcome.bind_assoc]
    show (match collapse ds with | some c => _ | none => _) = _
    cases collapse ds with
    | none => exact foldMembers_eq members g
    | some c => exact foldMembers_eq members (g.and c)

theorem foldBranches_eq : ∀ (members : List Filter) (cs : List Condition),
    foldBranches members cs = branches members >>= fun parts => pure (parts.map (cs ++ ·))
  | [], cs => by
    rw [foldBranches, branches, Outcome.pure_bind, Option.map_some, List.append_nil]
  | member :: members, cs => by
    rw [foldBranches, branches, foldInto_eq member, Outcome.bind_assoc, Outcome.bind_assoc]
    refine Outcome.bind_congr fun ds _ => ?_
    rw [Outcome.pure_bind]
    show (match collapse ds with | some c => _ | none => _) =
      (match collapse ds with | some c => _ | none => _) >>= _
    cases collapse ds with
    | none => rfl
    | some c =>
      show foldBranches members (cs ++ [c]) =
        (branches members >>= fun parts => pure (parts.map (c :: ·))) >>= _
      rw [foldBranches_eq members, Outcome.bind_assoc]
      refine Outcome.bind_congr fun parts _ => ?_
      cases parts with
      | none => rfl
      | some rest => simp [Outcome.pure_bind]

end

end Filter

/-! ### Restricting a selection -/

/-- The value of a conjunction on a row, over its members with content. -/
def Conjunction.value (row : Row) (g : Conjunction) : Truth :=
  .all (Condition.memberValues row g.members)

theorem Condition.memberValues_append (row : Row) (cs ds : List Condition) :
    memberValues row (cs ++ ds) = memberValues row cs ++ memberValues row ds := by
  induction cs with
  | nil => rfl
  | cons c cs ih =>
    rw [List.cons_append, memberValues, memberValues, ih]
    split_ifs
    · rfl
    · rfl

namespace Selection

theorem bindings_whereClause (s : Selection) : Sql.bindings s.whereClause = s.values := by
  rw [← Sql.bindings_contents, contents_whereClause, bindings_contents]

/-- **What a selection becomes** when it is restricted to the rows that a filter means, which comes
to a condition or to nothing. -/
structure Narrows (s t : Selection) (c? : Option Condition) : Prop where
  table : t.table = s.table
  limit : t.limit = s.limit
  offset : t.offset = s.offset
  /-- The conditions that were there stay in front. -/
  kept : s.restriction.members <+: t.restriction.members
  /-- The values are those of the selection that is restricted by the one condition. -/
  bindings : Sql.bindings t.whereClause = Sql.bindings (c?.elim s s.restrict).whereClause
  /-- On every row both have to hold, the restriction that was there and the condition. -/
  value : ∀ row, t.restriction.value row =
    (s.restriction.value row).and (c?.elim .yes (Condition.value row))
  /-- No row comes in that was left out. -/
  yes_of_yes : ∀ row, t.restriction.value row = .yes → s.restriction.value row = .yes

section Live
variable {s : Selection} {cs : List Condition} (hlive : ∀ c ∈ cs, c.isEmpty = false)
include hlive

theorem restriction_foldl_restrict :
    (cs.foldl restrict s).restriction.members = s.restriction.members ++ cs := by
  rw [Scope.foldl_restrict]
  exact Filter.members_foldl_and hlive s.restriction

theorem values_foldl_restrict :
    (cs.foldl restrict s).values = ((Filter.collapse cs).elim s s.restrict).values := by
  have hvalues := Filter.flatMap_collapse Condition.values_all hlive
  have hleft : (cs.foldl restrict s).values = s.values ++ cs.flatMap Condition.values := by
    unfold values
    rw [restriction_foldl_restrict hlive, List.flatMap_append]
  rw [hleft, ← hvalues]
  cases hc : Filter.collapse cs with
  | none => exact List.append_nil _
  | some c =>
    have hempty := Filter.isEmpty_of_collapse hlive hc
    simp [restrict, values, Conjunction.and, hempty]

theorem value_foldl_restrict (row : Row) : (cs.foldl restrict s).restriction.value row =
    (s.restriction.value row).and ((Filter.collapse cs).elim .yes (Condition.value row)) := by
  have hstand : Filter.StandFor row cs (.all (cs.map (Condition.value row))) := ⟨hlive, rfl⟩
  have hcollapse : (Filter.collapse cs).elim .yes (Condition.value row) =
      .all (cs.map (Condition.value row)) := by
    cases hc : Filter.collapse cs with
    | none => exact (Filter.value_of_collapse_eq_none hstand hc).symm
    | some c => exact (Filter.collapse_eq_some hstand hc).2
  unfold Conjunction.value
  rw [hcollapse, restriction_foldl_restrict hlive, Condition.memberValues_append,
    Condition.memberValues_eq_map row hlive, Truth.all_append]

theorem narrows_foldl_restrict : s.Narrows (cs.foldl restrict s) (Filter.collapse cs) := by
  have hfold := Scope.foldl_restrict s cs
  have hvalue := value_foldl_restrict (s := s) hlive
  refine ⟨by rw [hfold], by rw [hfold], by rw [hfold], ?_, ?_, hvalue, fun row hyes => ?_⟩
  · rw [restriction_foldl_restrict hlive]
    exact List.prefix_append _ _
  · rw [bindings_whereClause, bindings_whereClause, values_foldl_restrict hlive]
  · rw [hvalue row] at hyes
    exact Truth.eq_yes_of_and_eq_yes hyes

end Live

/-- Restricting a selection by a filter folds the filter into the restriction that is there. -/
theorem applyFilter_eq_foldInto (s : Selection) (f : Filter) :
    s.applyFilter f = f.foldInto s.restriction >>= fun g => pure { s with restriction := g } := by
  unfold applyFilter
  rw [Filter.foldInto_eq, Filter.Outcome.bind_assoc]
  refine Filter.Outcome.bind_congr fun cs _ => ?_
  rw [Filter.Outcome.pure_bind, Scope.foldl_restrict]

/-- **Folding a filter into a selection agrees with compiling it on its own** and restricting the
selection by the one condition that it comes to. -/
theorem applyFilter_agrees (s : Selection) (f : Filter) :
    s.applyFilter f = (f.foldInto s.restriction >>= fun g => pure { s with restriction := g }) ∧
      (∀ fault, (s.applyFilter f).result = .error fault ↔ f.compile.result = .error fault) ∧
      ∀ c?, f.compile.result = .ok c? → ∃ t, (s.applyFilter f).result = .ok t ∧ s.Narrows t c? := by
  refine ⟨applyFilter_eq_foldInto s f, fun fault => ?_, fun c? h => ?_⟩
  · rw [Scope.result_applyFilter, Filter.compile, Filter.Outcome.result_bind]
    cases f.conjuncts.result with
    | error own =>
      show Except.error own = Except.error fault ↔ Except.error own = Except.error fault
      rw [Except.error.injEq, Except.error.injEq]
    | ok cs =>
      constructor
      · intro h
        cases h
      · intro h
        cases h
  · obtain ⟨cs, hcs, h⟩ := Filter.Outcome.result_bind_eq_ok.mp h
    cases h
    refine ⟨cs.foldl restrict s, ?_, narrows_foldl_restrict (Filter.adds_of_result f cs hcs).live⟩
    rw [Scope.result_applyFilter, hcs]
    rfl

/-- The first two rows of a table, restricted by a fragment of the caller and a check of a
column. -/
def tenantRows : Selection where
  table := ⟨["rents"], by simp, by simp [ProperPart]⟩
  restriction := .ofList [.fragment "tenant = ? OR ?" [.int 7, .bool true],
    .null ⟨["tenant"], by simp, by simp [ProperPart]⟩ true]
  limit := some 2
  offset := none

/-- Two conditions side by side, of which one is a group, around a disjunction that is left out. -/
def recentFilter : Filter :=
  .all [.all [.present "a", .bounded .above "b" (.int 1)], .any [.missing "a", .all []],
    .deferred 0 (.ok (.oneOf "c" [.int 2, .int 3]))]

theorem applyFilter_agrees_recentFilter :
    (∃ t c, (tenantRows.applyFilter recentFilter).result = .ok t ∧
      recentFilter.compile.result = .ok (some c) ∧ tenantRows.Narrows t (some c) ∧
      t.restriction.members.length = 4 ∧ (tenantRows.restrict c).restriction.members.length = 3 ∧
      Sql.bindings t.whereClause = [.int 7, .bool true, .int 1, .int 2, .int 3]) ∧
    (∃ t, (tenantRows.applyFilter (.any [recentFilter, .all []])).result = .ok t ∧
      tenantRows.Narrows t none) ∧
    (tenantRows.applyFilter (.missing "no name")).result =
      .error (.validation "Invalid character ' ' in identifier 'no name'") := by
  have hsome : recentFilter.compile.gives (fun c? => c?.any fun c =>
      (tenantRows.restrict c).restriction.members.length = 3) = true := by decide +kernel
  have hgiven : (tenantRows.applyFilter recentFilter).gives (fun t =>
      t.restriction.members.length = 4 &&
        Sql.bindings t.whereClause = [.int 7, .bool true, .int 1, .int 2, .int 3]) = true := by
    decide +kernel
  have hnone : (Filter.any [recentFilter, .all []]).compile.gives Option.isNone = true := by
    decide +kernel
  obtain ⟨c?, hcompile, hthree⟩ := Filter.Outcome.exists_of_gives hsome
  obtain ⟨t, ht, hshape⟩ := Filter.Outcome.exists_of_gives hgiven
  obtain ⟨nothing, hopen, hnothing⟩ := Filter.Outcome.exists_of_gives hnone
  rw [Option.isNone_iff_eq_none] at hnothing
  subst hnothing
  refine ⟨?_, (applyFilter_agrees tenantRows _).2.2 none hopen, ?_⟩
  · cases c? with
    | none => cases hthree
    | some c =>
      obtain ⟨t', ht', hnarrows⟩ :=
        (applyFilter_agrees tenantRows recentFilter).2.2 (some c) hcompile
      cases ht.symm.trans ht'
      rw [Bool.and_eq_true, decide_eq_true_iff, decide_eq_true_iff] at hshape
      exact ⟨t, c, ht, hcompile, hnarrows, hshape.1, of_decide_eq_true hthree, hshape.2⟩
  · have hparse : Name.parse "no name" = .error
        (.validation "Invalid character ' ' in identifier 'no name'") := by decide +kernel
    refine ((applyFilter_agrees tenantRows _).2.1 _).mpr ?_
    rw [Filter.compile, Filter.conjuncts, Filter.onColumn, hparse]
    rfl

end Selection

end Rowset
