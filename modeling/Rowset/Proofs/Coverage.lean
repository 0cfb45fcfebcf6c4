import Rowset.Proofs.Reordering

/-!
# Faults that are covered

Whether a compilation succeeds depends on the order of members in one case only. A disjunction is
settled by its first trivial branch, and a fault in a branch behind that one is not found: the
trivial branch covers it. `hasFault` looks for faults without regard to the order, and leaves out
those that can be covered if it is asked to.

* A filter that has a fault which nothing covers fails in every order (`not_compiles_of_hasFault`),
  and one without any fault fails in none (`compiles_of_hasFault`).
* If every fault can be covered there is an order in which the filter is compiled
  (`exists_reordered_compiled`) and, if there is a fault at all, one in which it fails
  (`exists_reordered_failing`).
* `compile_reordered` puts this together with what the compilations come to.
-/

namespace Rowset.Filter

/-! ### Faults -/

mutual

/-- **Holds of the filters with a fault, wherever it stands:** a column that is no name, or a
deferred filter that is not found out. Unless those that can be covered are asked for too, the
branches of a disjunction are left out if one of them is trivial. -/
def hasFault (covered : Bool) : Filter → Bool
  | .all members => anyFault covered members
  | .any members => (covered || !hasTrivial members) && anyFault covered members
  | .not inner => inner.hasFault covered
  | .deferred _ (.ok f) => f.hasFault covered
  | f => (firstFault? f.steps).isSome

/-- Holds of the lists with such a filter. -/
def anyFault (covered : Bool) : List Filter → Bool
  | [] => false
  | member :: members => member.hasFault covered || anyFault covered members

end

/-- Holds of the filters whose compilation fails. -/
def fails (f : Filter) : Bool :=
  (firstFault? f.steps).isSome

theorem isSome_firstFault?_append (steps more : List Step) :
    (firstFault? (steps ++ more)).isSome =
      ((firstFault? steps).isSome || (firstFault? more).isSome) := by
  unfold firstFault?
  rw [List.findSome?_append, Option.isSome_or]

theorem fails_all (members : List Filter) : (Filter.all members).fails = members.any fails := by
  rw [fails, steps]
  induction members with
  | nil => rfl
  | cons member members ih => rw [memberSteps, isSome_firstFault?_append, ih, List.any_cons, fails]

theorem fails_all_eq (members : List Filter) :
    (Filter.all members).fails = (members.map fails).any id := by
  rw [fails_all, List.any_map, Function.id_comp]

theorem fails_any_cons (member : Filter) (members : List Filter) :
    (Filter.any (member :: members)).fails =
      (member.fails || !member.isTrivial && (Filter.any members).fails) := by
  rw [fails, steps, branchSteps, isSome_firstFault?_append, fails, fails, steps]
  cases member.isTrivial <;> rfl

theorem fails_not (inner : Filter) : (Filter.not inner).fails = inner.fails := by
  rw [fails, steps, fails]

theorem fails_deferred (ticket : Nat) (f : Filter) :
    (Filter.deferred ticket (.ok f)).fails = f.fails := by
  rw [fails, steps, firstFault?_cons, fails]
  rfl

theorem fails_anyNil : (Filter.any []).fails = false := by
  rw [fails, steps]
  rfl

theorem fails_any_congr : ∀ {ms ms' : List Filter},
    (ms.map fun m => (m.isTrivial, m.fails)) = (ms'.map fun m => (m.isTrivial, m.fails)) →
      (Filter.any ms).fails = (Filter.any ms').fails
  | [], [], _ => rfl
  | [], _ :: _, h => by cases h
  | _ :: _, [], h => by cases h
  | m :: ms, m' :: ms', h => by
    rw [List.map_cons, List.map_cons, List.cons.injEq, Prod.mk.injEq] at h
    obtain ⟨⟨htrivial, hfails⟩, hrest⟩ := h
    rw [fails_any_cons, fails_any_cons, htrivial, hfails, fails_any_congr hrest]

/-- **A filter is compiled or not with the members of conjunctions in any order,** as long as
branches keep theirs. -/
theorem Reordered.fails_eq {f g : Filter} (h : Reordered false f g) : f.fails = g.fails := by
  have hread : (f.isTrivial, f.fails) = (g.isTrivial, g.fails) := by
    refine h.read_eq (fun f => (f.isTrivial, f.fails))
      (fun ms ms' hms => ?_) (fun ms ms' hms => ?_) (fun f g hfg => ?_) fun ticket f g hfg => ?_
    · obtain ⟨htrivial, hfails⟩ := perm_map_pair hms
      rw [isTrivial, isTrivial, areTrivial_perm htrivial, fails_all_eq, fails_all_eq, hfails.any_eq]
    · obtain hms | ⟨hbranches, -⟩ := hms
      · obtain ⟨htrivial, -⟩ := perm_map_pair (List.Perm.of_eq hms)
        rw [isTrivial, isTrivial, isEmpty_of_perm_map htrivial, hasTrivial_perm htrivial,
          fails_any_congr hms]
      · cases hbranches
    · obtain ⟨-, hfails⟩ := Prod.ext_iff.mp hfg
      exact Prod.ext rfl (by rw [fails_not, fails_not, hfails])
    · obtain ⟨htrivial, hfails⟩ := Prod.ext_iff.mp hfg
      exact Prod.ext htrivial (by rw [fails_deferred, fails_deferred, hfails])
  exact (Prod.ext_iff.mp hread).2

/-- Without a trivial branch all branches are looked at. -/
theorem fails_any {members : List Filter} (h : hasTrivial members = false) :
    (Filter.any members).fails = members.any fails := by
  induction members with
  | nil => exact fails_anyNil
  | cons member members ih =>
    rw [hasTrivial, Bool.or_eq_false_iff] at h
    rw [fails_any_cons, h.1, ih h.2, List.any_cons]
    rfl

/-- Only branches can make a disjunction fail. -/
theorem exists_of_fails_any {members : List Filter} (h : (Filter.any members).fails = true) :
    members.any fails = true := by
  induction members with
  | nil =>
    rw [fails_anyNil] at h
    cases h
  | cons member members ih =>
    rw [fails_any_cons, Bool.or_eq_true, Bool.and_eq_true] at h
    rw [List.any_cons, Bool.or_eq_true]
    exact h.imp_right fun hrest => ih hrest.2

mutual

/-- **A filter that fails has a fault.** -/
theorem hasFault_of_fails : ∀ f : Filter, f.fails = true → f.hasFault true = true
  | .all members, h => by
    rw [fails_all] at h
    rw [hasFault]
    exact anyFault_of_fails members h
  | .any members, h => by
    rw [hasFault, Bool.true_or, Bool.true_and]
    exact anyFault_of_fails members (exists_of_fails_any h)
  | .not inner, h => by
    rw [fails_not] at h
    rw [hasFault]
    exact hasFault_of_fails inner h
  | .deferred ticket (.ok f), h => by
    rw [fails_deferred] at h
    rw [hasFault]
    exact hasFault_of_fails f h
  | .deferred _ (.error _), h | .properties _, h | .oneOf .., h | .noneOf .., h | .missing _, h
  | .present _, h | .between .., h | .outside .., h | .bounded .., h | .fragment .., h => h

theorem anyFault_of_fails :
    ∀ members : List Filter, members.any fails = true → anyFault true members = true
  | [], h => h
  | member :: members, h => by
    rw [List.any_cons, Bool.or_eq_true] at h
    rw [anyFault, Bool.or_eq_true]
    exact h.imp (hasFault_of_fails member) (anyFault_of_fails members)

end

mutual

/-- **A filter fails if it has a fault that is not covered.** -/
theorem fails_of_hasFault : ∀ f : Filter, f.hasFault false = true → f.fails = true
  | .all members, h => by
    rw [hasFault] at h
    rw [fails_all]
    exact fails_of_anyFault members h
  | .any members, h => by
    rw [hasFault, Bool.false_or, Bool.and_eq_true, Bool.not_eq_true'] at h
    rw [fails_any h.1]
    exact fails_of_anyFault members h.2
  | .not inner, h => by
    rw [hasFault] at h
    rw [fails_not]
    exact fails_of_hasFault inner h
  | .deferred ticket (.ok f), h => by
    rw [hasFault] at h
    rw [fails_deferred]
    exact fails_of_hasFault f h
  | .deferred _ (.error _), h | .properties _, h | .oneOf .., h | .noneOf .., h | .missing _, h
  | .present _, h | .between .., h | .outside .., h | .bounded .., h | .fragment .., h => h

theorem fails_of_anyFault :
    ∀ members : List Filter, anyFault false members = true → members.any fails = true
  | [], h => h
  | member :: members, h => by
    rw [anyFault, Bool.or_eq_true] at h
    rw [List.any_cons, Bool.or_eq_true]
    exact h.imp (fails_of_hasFault member) (fails_of_anyFault members)

end

theorem anyFault_eq (covered : Bool) (members : List Filter) :
    anyFault covered members = (members.map (hasFault covered)).any id := by
  induction members with
  | nil => rfl
  | cons member members ih => rw [anyFault, ih, List.map_cons, List.any_cons, id]

/-- **A filter has a fault in any order,** and one that is not covered too. -/
theorem Reordered.hasFault_eq {branches : Bool} {f g : Filter} (h : Reordered branches f g)
    (covered : Bool) : f.hasFault covered = g.hasFault covered := by
  have hread : (f.isTrivial, f.hasFault covered) = (g.isTrivial, g.hasFault covered) := by
    refine h.read_eq_of_perm (fun f => (f.isTrivial, f.hasFault covered))
      (fun ms ms' hms => ?_) (fun ms ms' hms => ?_) (fun f g hfg => ?_) fun ticket f g hfg => ?_
    · obtain ⟨htrivial, hfault⟩ := perm_map_pair hms
      rw [isTrivial, isTrivial, areTrivial_perm htrivial, hasFault, hasFault, anyFault_eq,
        anyFault_eq, hfault.any_eq]
    · obtain ⟨htrivial, hfault⟩ := perm_map_pair hms
      rw [isTrivial, isTrivial, isEmpty_of_perm_map htrivial, hasFault, hasFault,
        hasTrivial_perm htrivial, anyFault_eq, anyFault_eq, hfault.any_eq]
    · obtain ⟨-, hfault⟩ := Prod.ext_iff.mp hfg
      exact Prod.ext rfl hfault
    · exact hfg
  exact (Prod.ext_iff.mp hread).2

mutual

/-- A trivial filter has only faults that are covered. -/
theorem hasFault_of_isTrivial : ∀ f : Filter, f.isTrivial = true → f.hasFault false = false
  | .properties record, h => by
    rw [isTrivial, Record.isEmpty, List.isEmpty_iff] at h
    show (firstFault? (steps (.properties record))).isSome = false
    rw [steps, Record.columns, h]
    rfl
  | .all members, h => by
    rw [isTrivial] at h
    rw [hasFault]
    exact anyFault_of_areTrivial members h
  | .any members, h => by
    rw [isTrivial, Bool.or_eq_true, List.isEmpty_iff] at h
    rw [hasFault]
    rcases h with rfl | h
    · rfl
    · rw [h]
      rfl
  | .deferred _ (.ok f), h => by
    rw [isTrivial] at h
    rw [hasFault]
    exact hasFault_of_isTrivial f h
  | .deferred _ (.error _), h | .not _, h | .oneOf .., h | .noneOf .., h | .missing _, h
  | .present _, h | .between .., h | .outside .., h | .bounded .., h | .fragment .., h => by cases h

theorem anyFault_of_areTrivial :
    ∀ members : List Filter, areTrivial members = true → anyFault false members = false
  | [], _ => rfl
  | member :: members, h => by
    rw [areTrivial, Bool.and_eq_true] at h
    rw [anyFault, hasFault_of_isTrivial member h.1, anyFault_of_areTrivial members h.2]
    rfl

end

/-! ### Orders in which a filter is compiled, and in which it is not -/

mutual

/-- **A filter without a fault that is not covered is compiled in some order.** -/
theorem exists_reordered_compiled : ∀ f : Filter, f.hasFault false = false →
    ∃ g, Reordered true f g ∧ g.fails = false
  | .all members, h => by
    rw [hasFault] at h
    obtain ⟨members', hmembers, hfails⟩ := exists_members_compiled members h
    exact ⟨.all members', .allMembers hmembers [], by rw [fails_all, hfails]⟩
  | .any members, h => by
    rw [hasFault, Bool.false_or, Bool.and_eq_false_iff, Bool.not_eq_false'] at h
    rcases h with h | h
    · -- The trivial branch comes first and settles the disjunction.
      obtain ⟨before, member, behind, g, rfl, hg, htrivial, hfails⟩ :=
        exists_branch_compiled members h
      refine ⟨_, .anyFirst before behind hg, ?_⟩
      rw [fails_any_cons, hfails, htrivial]
      rfl
    · obtain ⟨members', hmembers, hfails⟩ := exists_members_compiled members h
      refine ⟨.any members', .anyMembers hmembers [], ?_⟩
      by_contra hany
      rw [Bool.not_eq_false] at hany
      rw [exists_of_fails_any hany] at hfails
      cases hfails
  | .not inner, h => by
    rw [hasFault] at h
    obtain ⟨g, hg, hfails⟩ := exists_reordered_compiled inner h
    exact ⟨.not g, .not hg, by rw [fails_not, hfails]⟩
  | .deferred ticket (.ok f), h => by
    rw [hasFault] at h
    obtain ⟨g, hg, hfails⟩ := exists_reordered_compiled f h
    exact ⟨.deferred ticket (.ok g), .deferred ticket hg, by rw [fails_deferred, hfails]⟩
  | .deferred _ (.error _), h | .properties _, h | .oneOf .., h | .noneOf .., h | .missing _, h
  | .present _, h | .between .., h | .outside .., h | .bounded .., h | .fragment .., h =>
    ⟨_, .refl _, h⟩

theorem exists_members_compiled : ∀ members : List Filter, anyFault false members = false →
    ∃ members', List.Forall₂ (Reordered true) members members' ∧ members'.any fails = false
  | [], _ => ⟨[], .nil, rfl⟩
  | member :: members, h => by
    rw [anyFault, Bool.or_eq_false_iff] at h
    obtain ⟨g, hg, hfails⟩ := exists_reordered_compiled member h.1
    obtain ⟨members', hmembers, hrest⟩ := exists_members_compiled members h.2
    exact ⟨g :: members', .cons hg hmembers, by rw [List.any_cons, hfails, hrest]; rfl⟩

theorem exists_branch_compiled : ∀ members : List Filter, hasTrivial members = true →
    ∃ before member behind g, members = before ++ member :: behind ∧ Reordered true member g ∧
      g.isTrivial = true ∧ g.fails = false
  | member :: members, h => by
    cases hm : member.isTrivial with
    | true =>
      obtain ⟨g, hg, hfails⟩ := exists_reordered_compiled member (hasFault_of_isTrivial member hm)
      exact ⟨[], member, members, g, rfl, hg, by rw [← hg.isTrivial_eq, hm], hfails⟩
    | false =>
      rw [hasTrivial, hm, Bool.false_or] at h
      obtain ⟨before, m, behind, g, rfl, hg, htrivial, hfails⟩ := exists_branch_compiled members h
      exact ⟨member :: before, m, behind, g, rfl, hg, htrivial, hfails⟩

end

mutual

/-- **A filter with a fault fails in some order.** -/
theorem exists_reordered_failing : ∀ f : Filter, f.hasFault true = true →
    ∃ g, Reordered true f g ∧ g.fails = true
  | .all members, h => by
    rw [hasFault] at h
    obtain ⟨before, member, behind, g, rfl, hg, hfails⟩ := exists_member_failing members h
    refine ⟨_, .allMember before behind hg, ?_⟩
    rw [fails_all, List.any_append, List.any_cons, hfails, Bool.true_or, Bool.or_true]
  | .any members, h => by
    rw [hasFault, Bool.true_or, Bool.true_and] at h
    -- The branch with the fault comes first.
    obtain ⟨before, member, behind, g, rfl, hg, hfails⟩ := exists_member_failing members h
    refine ⟨_, .anyFirst before behind hg, ?_⟩
    rw [fails_any_cons, hfails, Bool.true_or]
  | .not inner, h => by
    rw [hasFault] at h
    obtain ⟨g, hg, hfails⟩ := exists_reordered_failing inner h
    exact ⟨.not g, .not hg, by rw [fails_not, hfails]⟩
  | .deferred ticket (.ok f), h => by
    rw [hasFault] at h
    obtain ⟨g, hg, hfails⟩ := exists_reordered_failing f h
    exact ⟨.deferred ticket (.ok g), .deferred ticket hg, by rw [fails_deferred, hfails]⟩
  | .deferred _ (.error _), h | .properties _, h | .oneOf .., h | .noneOf .., h | .missing _, h
  | .present _, h | .between .., h | .outside .., h | .bounded .., h | .fragment .., h =>
    ⟨_, .refl _, h⟩

theorem exists_member_failing : ∀ members : List Filter, anyFault true members = true →
    ∃ before member behind g, members = before ++ member :: behind ∧ Reordered true member g ∧
      g.fails = true
  | member :: members, h => by
    cases hm : member.hasFault true with
    | true =>
      obtain ⟨g, hg, hfails⟩ := exists_reordered_failing member hm
      exact ⟨[], member, members, g, rfl, hg, hfails⟩
    | false =>
      rw [anyFault, hm, Bool.false_or] at h
      obtain ⟨before, m, behind, g, rfl, hg, hfails⟩ := exists_member_failing members h
      exact ⟨member :: before, m, behind, g, rfl, hg, hfails⟩

end

/-- Holds of the filters that are compiled. -/
def Compiles (f : Filter) : Prop :=
  ∃ p, f.compile.result = .ok p

theorem compiles_iff {f : Filter} : f.Compiles ↔ f.fails = false := by
  have hfollows := (follows_compile f).fails
  unfold Compiles fails
  cases hr : f.compile.result with
  | ok p =>
    have hnone := (follows_compile f).firstFault?_eq_none hr
    simp [hnone]
  | error fault =>
    rw [(hfollows fault).mp hr]
    simp

/-! ### Compilations in another order -/

/-- A fault that nothing covers is found in every order. -/
theorem not_compiles_of_hasFault {f : Filter} (h : f.hasFault false = true) {g : Filter}
    (hg : Reordered true f g) : ¬g.Compiles := by
  intro hcompiles
  have hfault : g.hasFault false = true := by rw [← hg.hasFault_eq, h]
  rw [compiles_iff, fails_of_hasFault g hfault] at hcompiles
  cases hcompiles

/-- Without a fault there is none to be found in any order. -/
theorem compiles_of_hasFault {f : Filter} (h : f.hasFault true = false) {g : Filter}
    (hg : Reordered true f g) : g.Compiles := by
  rw [compiles_iff]
  by_contra hfails
  rw [Bool.not_eq_false] at hfails
  have hfault := hasFault_of_fails g hfails
  rw [← hg.hasFault_eq, h] at hfault
  cases hfault

/-- A filter is compiled in every order or in none unless it has faults and all of them are
covered. -/
theorem forall_reordered_compiles_iff (f : Filter) :
    (∀ g, Reordered true f g → (g.Compiles ↔ f.Compiles)) ↔
      (f.hasFault true = true → f.hasFault false = true) := by
  constructor
  · intro h hfault
    by_contra hbare
    rw [Bool.not_eq_true] at hbare
    obtain ⟨g, hg, hgfails⟩ := exists_reordered_compiled f hbare
    obtain ⟨k, hk, hkfails⟩ := exists_reordered_failing f hfault
    have hiff := (h g hg).trans (h k hk).symm
    rw [compiles_iff, compiles_iff, hgfails, hkfails] at hiff
    cases hiff.mp rfl
  · intro h g hg
    cases hfault : f.hasFault true with
    | true =>
      have hbare := h hfault
      exact iff_of_false (not_compiles_of_hasFault hbare hg)
        (not_compiles_of_hasFault hbare (.refl f))
    | false =>
      exact iff_of_true (compiles_of_hasFault hfault hg) (compiles_of_hasFault hfault (.refl f))

/-- **The order of members does not matter to what a compilation comes to.** That of the members of
conjunctions does not matter to its success either. That of branches does only where the filter has
faults and each of them is covered by a trivial branch; a fault that is not covered makes the
compilation fail in every order. -/
theorem compile_reordered (f : Filter) :
    (∀ g p q, Reordered true f g → f.compile.result = .ok p → g.compile.result = .ok q →
      Matches p q) ∧
    (∀ g, Reordered false f g → (g.Compiles ↔ f.Compiles)) ∧
    (f.hasFault false = true → ∀ g, Reordered true f g → ¬g.Compiles) ∧
    ((∀ g, Reordered true f g → (g.Compiles ↔ f.Compiles)) ↔
      (f.hasFault true = true → f.hasFault false = true)) := by
  refine ⟨fun g p q h hp hq => h.compiled_matches hp hq, fun g h => ?_,
    fun hfault g h => not_compiles_of_hasFault hfault h, forall_reordered_compiles_iff f⟩
  rw [compiles_iff, compiles_iff, h.fails_eq]

/-- Groups of each kind below each other, without a fault. -/
def tieredFilter : Filter :=
  .all [.any [.missing "a", .oneOf "b" [.bool true, .null]],
    .not (.all [.outside "c" .null (.bool false), .equals "d" (.bool true)])]

/-- The same with all members in another order. -/
def shuffledFilter : Filter :=
  .all [.not (.all [.equals "d" (.bool true), .outside "c" .null (.bool false)]),
    .any [.oneOf "b" [.bool true, .null], .missing "a"]]

theorem reordered_tieredFilter : Reordered true tieredFilter shuffledFilter :=
  (Reordered.allMember [] _ (.anyPerm rfl (.swap _ _ _))).trans
    ((Reordered.allMember [_] [] (.not (.allPerm (.swap _ _ _)))).trans (.allPerm (.swap _ _ _)))

/-- Two faults, of which the first one is covered and the second one is not. -/
def exposedFilter : Filter :=
  .all [.any [.missing "no name", .all []], .any [.present "a", .missing "1b"]]

/-- The same with the second fault in front and the first one behind the trivial branch. -/
def exposedShuffledFilter : Filter :=
  .all [.any [.missing "1b", .present "a"], .any [.all [], .missing "no name"]]

theorem reordered_exposedFilter : Reordered true exposedFilter exposedShuffledFilter :=
  (Reordered.allMember [] _ (.anyPerm rfl (.swap _ _ _))).trans
    ((Reordered.allMember [_] [] (.anyPerm rfl (.swap _ _ _))).trans (.allPerm (.swap _ _ _)))

theorem compile_reordered_tieredFilter :
    Reordered true tieredFilter shuffledFilter ∧
    (∃ c d, tieredFilter.compile.result = .ok (some c) ∧
      shuffledFilter.compile.result = .ok (some d) ∧ Matches (some c) (some d)) ∧
    (shuffledFilter.Compiles ↔ tieredFilter.Compiles) ∧
    (exposedFilter.hasFault false = true ∧ Reordered true exposedFilter exposedShuffledFilter ∧
      ¬exposedShuffledFilter.Compiles) := by
  obtain ⟨hmatches, -, -, hiff⟩ := compile_reordered tieredFilter
  obtain ⟨-, -, hfails, -⟩ := compile_reordered exposedFilter
  have hexposed : exposedFilter.hasFault false = true := by decide +kernel
  have hreordered := reordered_tieredFilter
  have hc : tieredFilter.compile.gives Option.isSome = true := by decide +kernel
  have hd : shuffledFilter.compile.gives Option.isSome = true := by decide +kernel
  obtain ⟨p, hp, hc⟩ := Outcome.exists_of_gives hc
  obtain ⟨q, hq, hd⟩ := Outcome.exists_of_gives hd
  obtain ⟨c, rfl⟩ := Option.isSome_iff_exists.mp hc
  obtain ⟨d, rfl⟩ := Option.isSome_iff_exists.mp hd
  have hfault : tieredFilter.hasFault true = false := by decide +kernel
  refine ⟨hreordered, ⟨c, d, hp, hq, hmatches _ _ _ hreordered hp hq⟩, ?_, hexposed,
    reordered_exposedFilter, hfails hexposed _ reordered_exposedFilter⟩
  exact hiff.mpr (fun h => absurd h (by rw [hfault]; decide)) _ hreordered

/-- A fault behind a trivial branch is not found, and the same fault before it is. -/
theorem compile_coveredFilter :
    [Filter.all [], .missing "no name"].Perm [.missing "no name", .all []] ∧
    (Filter.any [.all [], .missing "no name"]).compile.result = .ok none ∧
    (Filter.any [.missing "no name", .all []]).compile.result =
      .error (.validation "Invalid character ' ' in identifier 'no name'") := by
  refine ⟨.swap _ _ _, ?_, ((follows_compile _).fails _).mpr (by decide +kernel)⟩
  have hnone : (Filter.any [.all [], .missing "no name"]).compile.gives Option.isNone = true := by
    decide +kernel
  obtain ⟨p, hp, hnone⟩ := Outcome.exists_of_gives hnone
  rw [hp, Option.isNone_iff_eq_none.mp hnone]

end Rowset.Filter
