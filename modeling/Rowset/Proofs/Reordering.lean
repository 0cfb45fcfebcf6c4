import Rowset.Proofs.Bindings
import Rowset.Proofs.Resolution
import Mathlib.Algebra.BigOperators.Group.List.Basic
import Mathlib.Algebra.Order.Group.Multiset

/-!
# Filters with their members in another order

`Filter.Reordered` relates a filter to those that have the members of its groups in another order,
at any depth. What is read off a filter in a way that does not look at the order of members is the
same for both (`Reordered.read_eq`): whether it is trivial, its value on a row, and the values that
it binds, as a multiset.

So two compilations come to the same thing if both of them succeed (`Reordered.compiled_matches`).
The values that a compilation binds are given by the filter alone (`bindings_of_compile`); the two
are never compared step by step, as one of them can end at a trivial branch that comes later in the
other one.
-/

namespace Rowset

namespace Truth

theorem and_left_comm (a b c : Truth) : a.and (b.and c) = b.and (a.and c) := by
  cases a <;> cases b <;> cases c <;> rfl

theorem or_left_comm (a b c : Truth) : a.or (b.or c) = b.or (a.or c) := by
  cases a <;> cases b <;> cases c <;> rfl

theorem all_perm {as bs : List Truth} (h : as.Perm bs) : all as = all bs := by
  induction h with
  | nil => rfl
  | cons a _ ih => rw [all_cons, all_cons, ih]
  | swap a b as => simp only [all_cons, and_left_comm]
  | trans _ _ ih ih' => exact ih.trans ih'

theorem any_perm {as bs : List Truth} (h : as.Perm bs) : any as = any bs := by
  induction h with
  | nil => rfl
  | cons a _ ih => rw [any_cons, any_cons, ih]
  | swap a b as => simp only [any_cons, or_left_comm]
  | trans _ _ ih ih' => exact ih.trans ih'

end Truth

namespace Filter

/-! ### Members in another order -/

/-- **A filter has the members of another one in another order,** at any depth: those of its
conjunctions and, where `branches` is set, the branches of its disjunctions as well. -/
inductive Reordered (branches : Bool) : Filter → Filter → Prop where
  | refl (f : Filter) : Reordered branches f f
  | trans {f g h : Filter} (first : Reordered branches f g) (second : Reordered branches g h) :
      Reordered branches f h
  | allPerm {members members' : List Filter} (h : members.Perm members') :
      Reordered branches (.all members) (.all members')
  | anyPerm {members members' : List Filter} (hbranches : branches = true)
      (h : members.Perm members') : Reordered branches (.any members) (.any members')
  | allMember (before behind : List Filter) {f g : Filter} (h : Reordered branches f g) :
      Reordered branches (.all (before ++ f :: behind)) (.all (before ++ g :: behind))
  | anyMember (before behind : List Filter) {f g : Filter} (h : Reordered branches f g) :
      Reordered branches (.any (before ++ f :: behind)) (.any (before ++ g :: behind))
  | not {f g : Filter} (h : Reordered branches f g) : Reordered branches (.not f) (.not g)
  | deferred (ticket : Nat) {f g : Filter} (h : Reordered branches f g) :
      Reordered branches (.deferred ticket (.ok f)) (.deferred ticket (.ok g))

namespace Reordered

variable {branches : Bool}

/-- What is read off a filter by what is read off its parts is the same in another order, if it does
not look at the order of members; at that of branches only where they stay in order. -/
theorem read_eq {α : Type} {f g : Filter} (h : Reordered branches f g) (read : Filter → α)
    (hall : ∀ ms ms' : List Filter, (ms.map read).Perm (ms'.map read) →
      read (.all ms) = read (.all ms'))
    (hany : ∀ ms ms' : List Filter,
      (ms.map read = ms'.map read ∨ branches = true ∧ (ms.map read).Perm (ms'.map read)) →
        read (.any ms) = read (.any ms'))
    (hnot : ∀ f g : Filter, read f = read g → read (.not f) = read (.not g))
    (hdeferred : ∀ (ticket : Nat) (f g : Filter), read f = read g →
      read (.deferred ticket (.ok f)) = read (.deferred ticket (.ok g))) :
    read f = read g := by
  induction h with
  | refl f => rfl
  | trans _ _ ih ih' => exact ih.trans ih'
  | allPerm h => exact hall _ _ (h.map read)
  | anyPerm hbranches h => exact hany _ _ (.inr ⟨hbranches, h.map read⟩)
  | allMember before behind _ ih =>
    refine hall _ _ (List.Perm.of_eq ?_)
    rw [List.map_append, List.map_append, List.map_cons, List.map_cons, ih]
  | anyMember before behind _ ih =>
    refine hany _ _ (.inl ?_)
    rw [List.map_append, List.map_append, List.map_cons, List.map_cons, ih]
  | not _ ih => exact hnot _ _ ih
  | deferred ticket _ ih => exact hdeferred ticket _ _ ih

/-- The same for what does not look at the order of branches either. -/
theorem read_eq_of_perm {α : Type} {f g : Filter} (h : Reordered branches f g) (read : Filter → α)
    (hall : ∀ ms ms' : List Filter, (ms.map read).Perm (ms'.map read) →
      read (.all ms) = read (.all ms'))
    (hany : ∀ ms ms' : List Filter, (ms.map read).Perm (ms'.map read) →
      read (.any ms) = read (.any ms'))
    (hnot : ∀ f g : Filter, read f = read g → read (.not f) = read (.not g))
    (hdeferred : ∀ (ticket : Nat) (f g : Filter), read f = read g →
      read (.deferred ticket (.ok f)) = read (.deferred ticket (.ok g))) :
    read f = read g :=
  h.read_eq read hall (fun ms ms' hms => hany ms ms' (hms.elim List.Perm.of_eq And.right)) hnot
    hdeferred

/-- Members that are reordered one by one. -/
theorem allMembers {ms ms' : List Filter} (h : List.Forall₂ (Reordered branches) ms ms')
    (before : List Filter) : Reordered branches (.all (before ++ ms)) (.all (before ++ ms')) := by
  induction h generalizing before with
  | nil => exact .refl _
  | @cons m m' ms ms' hm _ ih =>
    have hrest := ih (before ++ [m'])
    rw [List.append_assoc, List.append_assoc] at hrest
    exact (Reordered.allMember before ms hm).trans hrest

/-- Branches that are reordered one by one. -/
theorem anyMembers {ms ms' : List Filter} (h : List.Forall₂ (Reordered branches) ms ms')
    (before : List Filter) : Reordered branches (.any (before ++ ms)) (.any (before ++ ms')) := by
  induction h generalizing before with
  | nil => exact .refl _
  | @cons m m' ms ms' hm _ ih =>
    have hrest := ih (before ++ [m'])
    rw [List.append_assoc, List.append_assoc] at hrest
    exact (Reordered.anyMember before ms hm).trans hrest

/-- A branch is reordered and comes first. -/
theorem anyFirst (before behind : List Filter) {f g : Filter} (h : Reordered true f g) :
    Reordered true (.any (before ++ f :: behind)) (.any (g :: (before ++ behind))) :=
  (Reordered.anyMember before behind h).trans (.anyPerm rfl List.perm_middle)

end Reordered

/-! ### What does not depend on the order -/

theorem areTrivial_eq (members : List Filter) :
    areTrivial members = (members.map isTrivial).all id := by
  induction members with
  | nil => rfl
  | cons member members ih => rw [areTrivial, ih, List.map_cons, List.all_cons, id]

theorem hasTrivial_eq (members : List Filter) :
    hasTrivial members = (members.map isTrivial).any id := by
  induction members with
  | nil => rfl
  | cons member members ih => rw [hasTrivial, ih, List.map_cons, List.any_cons, id]

theorem areTrivial_perm {ms ms' : List Filter}
    (h : (ms.map isTrivial).Perm (ms'.map isTrivial)) : areTrivial ms = areTrivial ms' := by
  rw [areTrivial_eq, areTrivial_eq, h.all_eq]

theorem hasTrivial_perm {ms ms' : List Filter}
    (h : (ms.map isTrivial).Perm (ms'.map isTrivial)) : hasTrivial ms = hasTrivial ms' := by
  rw [hasTrivial_eq, hasTrivial_eq, h.any_eq]

theorem values_eq_map (row : Row) (stray : Filter → Truth) (members : List Filter) :
    values row stray members = members.map (value row stray) := by
  induction members with
  | nil => rfl
  | cons member members ih => rw [values, ih, List.map_cons]

theorem isEmpty_of_perm_map {α : Type} {read : Filter → α} {ms ms' : List Filter}
    (h : (ms.map read).Perm (ms'.map read)) : ms.isEmpty = ms'.isEmpty := by
  have hmap := h.isEmpty_eq
  rwa [List.isEmpty_map, List.isEmpty_map] at hmap

theorem perm_map_pair {α β : Type} {read : Filter → α} {read' : Filter → β}
    {ms ms' : List Filter}
    (h : (ms.map fun m => (read m, read' m)).Perm (ms'.map fun m => (read m, read' m))) :
    (ms.map read).Perm (ms'.map read) ∧ (ms.map read').Perm (ms'.map read') := by
  have hfst := h.map Prod.fst
  have hsnd := h.map Prod.snd
  rw [List.map_map, List.map_map] at hfst hsnd
  exact ⟨hfst, hsnd⟩

section Invariants
variable {branches : Bool} {f g : Filter}

theorem Reordered.isTrivial_eq (h : Reordered branches f g) : f.isTrivial = g.isTrivial := by
  refine h.read_eq_of_perm isTrivial (fun ms ms' hms => ?_) (fun ms ms' hms => ?_)
    (fun f g _ => rfl) fun ticket f g hfg => ?_
  · rw [isTrivial, isTrivial, areTrivial_perm hms]
  · rw [isTrivial, isTrivial, isEmpty_of_perm_map hms, hasTrivial_perm hms]
  · rw [isTrivial, isTrivial, hfg]

/-- **A filter has the same value in another order.** -/
theorem Reordered.value_eq (h : Reordered branches f g) (row : Row) (stray : Filter → Truth) :
    f.value row stray = g.value row stray := by
  refine h.read_eq_of_perm (fun f => f.value row stray) (fun ms ms' hms => ?_)
    (fun ms ms' hms => ?_) (fun f g hfg => ?_) fun ticket f g hfg => ?_
  · rw [value, value, values_eq_map, values_eq_map, Truth.all_perm hms]
  · rw [value, value, isEmpty_of_perm_map hms, values_eq_map, values_eq_map, Truth.any_perm hms]
  · rw [value, value, hfg]
  · rw [value, value, hfg]

end Invariants

/-! ### The values that a filter binds -/

mutual

/-- The values that a filter binds when its compilation succeeds. The branches of a disjunction bind
nothing if one of them is trivial, and a missing value of a record is not bound. -/
def bindings : Filter → List Value
  | .properties record => record.entries.flatMap fun entry =>
      if entry.2.isNull then [] else [entry.2]
  | .all members => memberBindings members
  | .any members => if hasTrivial members then [] else memberBindings members
  | .not inner => inner.bindings
  | .oneOf _ values => values
  | .noneOf _ values => values
  | .missing _ => []
  | .present _ => []
  | .between _ low high => [low, high]
  | .outside _ low high => [low, high]
  | .bounded _ _ value => [value]
  | .fragment _ bindings => bindings
  | .deferred _ (.ok f) => f.bindings
  | .deferred _ (.error _) => []

/-- The values that the members of a group bind, one after the other. -/
def memberBindings : List Filter → List Value
  | [] => []
  | member :: members => member.bindings ++ memberBindings members

end

theorem values_of_test? {f : Filter} {column : String} {test : Name → Condition}
    (h : f.test? = some (column, test)) (name : Name) : (test name).values = f.bindings := by
  cases f <;> cases h
  case oneOf values => exact Condition.values_oneOf name values
  case noneOf values => exact Condition.values_noneOf name values
  all_goals rfl

theorem values_equals (name : Name) (value : Value) :
    (Condition.equals name value).values = if value.isNull then [] else [value] := by
  cases value <;> rfl

theorem values_collapse {ds : List Condition} (h : ∀ d ∈ ds, d.isEmpty = false) :
    (collapse ds).toList.flatMap Condition.values = ds.flatMap Condition.values :=
  flatMap_collapse Condition.values_all h

mutual

/-- **The conditions that a filter adds bind its values.** -/
theorem Adds.values : ∀ {f : Filter} {cs : List Condition}, Adds f cs →
    cs.flatMap Condition.values = f.bindings
  | _, _, @Adds.properties record names h => by
    have hlength := Name.length_of_parseAll h
    rw [Record.columns, List.length_map] at hlength
    have hentries : (names.zip record.entries).map Prod.snd = record.entries :=
      List.map_snd_zip (by omega)
    rw [bindings, List.flatMap_map]
    conv_rhs => rw [← hentries, List.flatMap_map]
    exact List.flatMap_congr fun pair _ => values_equals pair.1 pair.2.2
  | _, _, .all h => by
    rw [bindings]
    exact h.values
  | _, _, @Adds.anyOpen before behind member _ _ _ h hnone => by
    have hopen := h.eq_nil_iff.mp ((collapse_eq_none_iff h.live).mp hnone)
    have htrivial : hasTrivial (before ++ member :: behind) = true := by
      simp [hasTrivial_append, hasTrivial, hopen]
    rw [bindings, if_pos htrivial]
    rfl
  | _, _, .anyNone => rfl
  | _, _, @Adds.any members c cs h => by
    have hshut : hasTrivial members = false := by
      have hopen := h.hasTrivial_iff
      simpa using hopen
    have ih := h.values
    rw [reduceOption_map_some] at ih
    rw [bindings, hshut, if_neg Bool.false_ne_true, List.flatMap_singleton, Condition.values_any]
    exact ih
  | _, _, .notNever h hnone => by
    have ih := h.values
    rw [(collapse_eq_none_iff h.live).mp hnone] at ih
    rw [bindings, ← ih]
    rfl
  | _, _, .not h hsome => by
    have ih := h.values
    rw [← values_collapse h.live, hsome, Option.toList_some, List.flatMap_singleton] at ih
    rw [bindings, List.flatMap_singleton, Condition.values_not, ih]
  | _, _, .test htest _ => by rw [List.flatMap_singleton, values_of_test? htest]
  | _, _, .fragment => by
    rw [List.flatMap_singleton, Condition.values_fragment, bindings]
  | _, _, .deferred h => by
    rw [bindings]
    exact h.values

theorem AddsEach.values : ∀ {members : List Filter} {parts : List (Option Condition)},
    AddsEach members parts →
      parts.reduceOption.flatMap Condition.values = memberBindings members
  | _, _, .nil => rfl
  | _, _, .cons h hs => by
    rw [flatMap_reduceOption_cons, values_collapse h.live, memberBindings, h.values, hs.values]

end

/-- What a compilation comes to binds the values of the filter. -/
theorem bindings_of_compile {f : Filter} {c : Condition} (h : f.compile.result = .ok (some c)) :
    Sql.bindings c.render = f.bindings := by
  obtain ⟨ds, hds, h⟩ := Outcome.result_bind_eq_ok.mp h
  have hadds := adds_of_result f ds hds
  have hsome : collapse ds = some c := by
    cases hc : collapse ds with
    | none => rw [hc] at h; cases h
    | some d => rw [hc] at h; cases h; rfl
  rw [← hadds.values, ← values_collapse hadds.live, hsome, Option.toList_some,
    List.flatMap_singleton, Condition.values_eq_bindings]

/-- It comes to nothing exactly when the filter is trivial. -/
theorem isTrivial_of_compile {f : Filter} {p : Option Condition} (h : f.compile.result = .ok p) :
    p = none ↔ f.isTrivial = true := by
  obtain ⟨ds, hds, h⟩ := Outcome.result_bind_eq_ok.mp h
  cases h
  exact collapse_eq_none_iff_isTrivial hds

/-- What the members of groups bind, as multisets. -/
theorem memberBindings_perm {ms ms' : List Filter}
    (h : (ms.map fun m => (m.bindings : Multiset Value)).Perm
      (ms'.map fun m => (m.bindings : Multiset Value))) :
    (memberBindings ms : Multiset Value) = memberBindings ms' := by
  have hsum : ∀ members : List Filter, (memberBindings members : Multiset Value) =
      (members.map fun m => (m.bindings : Multiset Value)).sum := by
    intro members
    induction members with
    | nil => rfl
    | cons member members ih =>
      rw [memberBindings, ← Multiset.coe_add, ih, List.map_cons, List.sum_cons]
  rw [hsum, hsum, h.sum_eq]

/-- **A filter binds the same values in another order,** in another order. -/
theorem Reordered.bindings_perm {branches : Bool} {f g : Filter} (h : Reordered branches f g) :
    f.bindings.Perm g.bindings := by
  have hread : (f.isTrivial, (f.bindings : Multiset Value)) = (g.isTrivial, ↑g.bindings) := by
    refine h.read_eq_of_perm (fun f => (f.isTrivial, (f.bindings : Multiset Value)))
      (fun ms ms' hms => ?_) (fun ms ms' hms => ?_) (fun f g hfg => ?_) fun ticket f g hfg => ?_
    · obtain ⟨htrivial, hbindings⟩ := perm_map_pair hms
      rw [isTrivial, isTrivial, areTrivial_perm htrivial, bindings, bindings,
        memberBindings_perm hbindings]
    · obtain ⟨htrivial, hbindings⟩ := perm_map_pair hms
      rw [isTrivial, isTrivial, isEmpty_of_perm_map htrivial, bindings, bindings,
        hasTrivial_perm htrivial]
      split_ifs
      · rfl
      · rw [memberBindings_perm hbindings]
    · obtain ⟨-, hbindings⟩ := Prod.ext_iff.mp hfg
      exact Prod.ext rfl hbindings
    · exact hfg
  exact Multiset.coe_eq_coe.mp (Prod.ext_iff.mp hread).2

/-! ### Compilations in another order -/

/-- Two compilations come to the same: to nothing, or to conditions with one value on every row,
which bind the same values in some order. -/
inductive Matches : Option Condition → Option Condition → Prop where
  | nothing : Matches none none
  | condition {c d : Condition} (value : ∀ row : Row, c.value row = d.value row)
      (bindings : (Sql.bindings c.render).Perm (Sql.bindings d.render)) :
      Matches (some c) (some d)

theorem Reordered.compiled_matches {branches : Bool} {f g : Filter} (h : Reordered branches f g)
    {p q : Option Condition} (hp : f.compile.result = .ok p) (hq : g.compile.result = .ok q) :
    Matches p q := by
  have hopen : p = none ↔ q = none := by
    rw [isTrivial_of_compile hp, isTrivial_of_compile hq, h.isTrivial_eq]
  rcases p with _ | c
  · rw [hopen.mp rfl]
    exact .nothing
  · rcases q with _ | d
    · cases hopen.mpr rfl
    · refine .condition (fun row => ?_) ?_
      · have hc := (compile_value row (fun _ => .no) f).1 c hp
        have hd := (compile_value row (fun _ => .no) g).1 d hq
        rw [hc, hd, h.value_eq]
      · rw [bindings_of_compile hp, bindings_of_compile hq]
        exact h.bindings_perm

end Filter

end Rowset
