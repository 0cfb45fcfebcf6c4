import Rowset.Proofs.Meaning
import Mathlib.Data.List.Forall2

/-!
# Compilation keeps the meaning of filters

A filter is compiled to conditions that have to hold together. The invariant is `StandFor`: none
of the conditions is empty, so that none is dropped where they are collected, and together they
have the value of the filter (`standFor_conjuncts`). It carries a disjunction over its early end:
a branch that comes to no condition has the value `yes`, which settles the disjunction whatever
the branches after it are. The result is then read off the collapsed conditions.
-/

namespace Rowset

/-- A sequence of two steps succeeds when both do. -/
theorem bind_eq_ok {ε α β : Type} {x : Except ε α} {next : α → Except ε β} {b : β} :
    (x >>= next) = .ok b ↔ ∃ a, x = .ok a ∧ next a = .ok b := by
  cases x with
  | error e => simp [bind, Except.bind]
  | ok a => simp [bind, Except.bind]

/-- It fails with the fault of the first one that fails. -/
theorem bind_eq_error {ε α β : Type} {x : Except ε α} {next : α → Except ε β} {e : ε} :
    (x >>= next) = .error e ↔ x = .error e ∨ ∃ a, x = .ok a ∧ next a = .error e := by
  cases x with
  | error e' => simp [bind, Except.bind]
  | ok a => simp [bind, Except.bind]

/-- A step that only makes something of what it is given succeeds whenever the step before does. -/
theorem map_eq_ok {ε α β : Type} {x : Except ε α} {f : α → β} {b : β} :
    x.map f = .ok b ↔ ∃ a, x = .ok a ∧ f a = b := by
  cases x with
  | error e => simp [Except.map]
  | ok a => simp [Except.map]

/-- Steps that succeed one after the other have succeeded each on its own. -/
theorem forall₂_of_mapM {ε α β : Type} {f : α → Except ε β} : ∀ {xs : List α} {ys : List β},
    xs.mapM f = .ok ys → List.Forall₂ (fun x y => f x = .ok y) xs ys
  | [], ys, h => by
    cases h
    exact .nil
  | x :: xs, ys, h => by
    rw [List.mapM_cons] at h
    obtain ⟨y, hy, h⟩ := bind_eq_ok.mp h
    obtain ⟨rest, hrest, h⟩ := bind_eq_ok.mp h
    cases h
    exact .cons hy (forall₂_of_mapM hrest)

namespace Filter

namespace Outcome

variable {α β γ : Type}

/-- The result of two steps is that of their results. -/
theorem result_bind (o : Outcome α) (next : α → Outcome β) :
    (o >>= next).result = o.result >>= fun a => (next a).result := by
  show (o.andThen next).result = _
  unfold andThen
  cases o.result <;> rfl

/-- A sequence of steps gives what its last step gives, if none before it failed. -/
theorem result_bind_eq_ok {o : Outcome α} {next : α → Outcome β} {b : β} :
    (o >>= next).result = .ok b ↔ ∃ a, o.result = .ok a ∧ (next a).result = .ok b := by
  rw [result_bind, bind_eq_ok]

theorem resolved_bind_of_error {o : Outcome α} {fault : Fault} (h : o.result = .error fault)
    (next : α → Outcome β) : (o >>= next).resolved = o.resolved := by
  show (o.andThen next).resolved = _
  unfold andThen
  rw [h]

theorem resolved_bind_of_ok {o : Outcome α} {a : α} (h : o.result = .ok a)
    (next : α → Outcome β) : (o >>= next).resolved = o.resolved ++ (next a).resolved := by
  show (o.andThen next).resolved = _
  unfold andThen
  rw [h]

/-- Outcomes that go on in the same way are the same. -/
theorem bind_congr {o : Outcome α} {next next' : α → Outcome β}
    (h : ∀ a, o.result = .ok a → next a = next' a) : o >>= next = o >>= next' := by
  show o.andThen next = o.andThen next'
  unfold andThen
  cases hr : o.result with
  | error fault => rfl
  | ok a =>
    have hnext := h a hr
    simp only [hnext]

theorem pure_bind (a : α) (next : α → Outcome β) : (pure a >>= next) = next a := rfl

theorem bind_assoc (o : Outcome α) (next : α → Outcome β) (last : β → Outcome γ) :
    (o >>= next) >>= last = o >>= fun a => next a >>= last := by
  obtain ⟨resolved, result⟩ := o
  cases result with
  | error fault => rfl
  | ok a =>
    show (Outcome.mk (resolved ++ (next a).resolved) (next a).result).andThen last =
      Outcome.mk (resolved ++ ((next a).andThen last).resolved) ((next a).andThen last).result
    unfold andThen
    cases (next a).result with
    | error fault => rfl
    | ok b => simp only [List.append_assoc]

theorem after_bind (o : Outcome α) (ticket : Nat) (next : α → Outcome β) :
    o.after ticket >>= next = (o >>= next).after ticket := by
  obtain ⟨resolved, result⟩ := o
  cases result with
  | error fault => rfl
  | ok a => rfl

end Outcome

/-- Holds of the outcomes whose result meets a test. -/
def Outcome.gives {α : Type} (o : Outcome α) (test : α → Bool) : Bool :=
  match o.result with
  | .ok a => test a
  | .error _ => false

theorem Outcome.exists_of_gives {α : Type} {o : Outcome α} {test : α → Bool}
    (h : o.gives test = true) : ∃ a, o.result = .ok a ∧ test a = true := by
  unfold gives at h
  cases hr : o.result with
  | error fault =>
    rw [hr] at h
    cases h
  | ok a =>
    rw [hr] at h
    exact ⟨a, rfl, h⟩

/-- Some conditions stand for a truth value: none of them is empty, and together they have it. -/
structure StandFor (row : Row) (cs : List Condition) (t : Truth) : Prop where
  live : ∀ c ∈ cs, c.isEmpty = false
  value : Truth.all (cs.map (Condition.value row)) = t

theorem members_foldl_and {cs : List Condition} (h : ∀ c ∈ cs, c.isEmpty = false)
    (g : Conjunction) : (cs.foldl Conjunction.and g).members = g.members ++ cs := by
  induction cs generalizing g with
  | nil => simp
  | cons c cs ih =>
    have hc : c.isEmpty = false := h c List.mem_cons_self
    rw [List.foldl_cons, ih fun c' hc' => h c' (List.mem_cons_of_mem c hc')]
    simp [Conjunction.and, hc]

theorem members_ofList {cs : List Condition} (h : ∀ c ∈ cs, c.isEmpty = false) :
    (Conjunction.ofList cs).members = cs := by
  rw [Conjunction.ofList, members_foldl_and h]
  rfl

section Collapse
variable {row : Row} {cs : List Condition} {t : Truth} (h : StandFor row cs t)
include h

theorem collapse_eq_none (hn : collapse cs = none) : cs = [] := by
  unfold collapse Conjunction.condition? at hn
  rw [members_ofList h.live] at hn
  split at hn
  · rfl
  · cases hn
  · cases hn

theorem collapse_eq_some {c : Condition} (hs : collapse cs = some c) :
    c.isEmpty = false ∧ c.value row = t := by
  unfold collapse Conjunction.condition? at hs
  rw [members_ofList h.live] at hs
  rw [← h.value]
  split at hs
  · cases hs
  · cases hs
    exact ⟨h.live c List.mem_cons_self, by simp⟩
  · next cs hne _ =>
    cases hs
    refine ⟨?_, by rw [Condition.value, Condition.memberValues_eq_map row h.live]⟩
    obtain ⟨c, cs, rfl⟩ := List.exists_cons_of_ne_nil hne
    simp [Condition.isEmpty, Condition.areEmpty, h.live c List.mem_cons_self]

theorem value_of_collapse_eq_none (hn : collapse cs = none) : t = .yes := by
  rw [← h.value, collapse_eq_none h hn]
  rfl

end Collapse

theorem standFor_singleton {row : Row} {c : Condition} (hc : c.isEmpty = false) :
    StandFor row [c] (c.value row) :=
  ⟨by simpa using hc, by simp⟩

theorem StandFor.cons {row : Row} {c : Condition} {cs : List Condition} {t : Truth}
    (hc : c.isEmpty = false) (h : StandFor row cs t) :
    StandFor row (c :: cs) ((c.value row).and t) := by
  refine ⟨List.forall_mem_cons.mpr ⟨hc, h.live⟩, ?_⟩
  rw [List.map_cons, Truth.all_cons, h.value]

/-- A test of a column stands for its value, once the column has been read. -/
theorem standFor_onColumn {row : Row} {column : String} {stray : Truth} {test : Name → Condition}
    {value : Name → Truth} {cs : List Condition} (hlive : ∀ name, (test name).isEmpty = false)
    (hvalue : ∀ name, (test name).value row = value name)
    (h : (onColumn column test).result = .ok cs) :
    StandFor row cs (testValue column stray value) := by
  unfold onColumn Outcome.ofExcept at h
  unfold testValue
  cases hp : Name.parse column with
  | error fault => rw [hp] at h; cases h
  | ok name =>
    rw [hp] at h
    cases h
    show StandFor row [test name] (value name)
    rw [← hvalue name]
    exact standFor_singleton (hlive name)

theorem isEmpty_equals (name : Name) (value : Value) :
    (Condition.equals name value).isEmpty = false := by
  cases value <;> rfl

theorem value_equals (row : Row) (name : Name) (value : Value) :
    (Condition.equals name value).value row = row.hasValue name value := by
  cases value <;> simp [Condition.equals, Condition.value, Row.hasValue, Truth.negatedIf]

theorem value_oneOf (row : Row) (name : Name) (values : List Value) :
    (Condition.oneOf name values).value row = row.isOneOf name values := by
  unfold Condition.oneOf
  cases values with
  | nil => rfl
  | cons v vs => rfl

theorem value_noneOf (row : Row) (name : Name) (values : List Value) :
    (Condition.noneOf name values).value row = (row.isOneOf name values).not := by
  unfold Condition.noneOf
  cases values with
  | nil => rfl
  | cons v vs => rfl

theorem equalities_eq_ok (row : Row) (stray : Filter → Truth) :
    ∀ {entries : List (String × Value)} {cs : List Condition},
      (entries.mapM fun (column, value) => do
        let name ← Name.parse column
        pure (Condition.equals name value)) = Except.ok cs →
      (∀ c ∈ cs, c.isEmpty = false) ∧
        cs.map (Condition.value row) = entries.map (entryValue row stray)
  | [], cs, h => by
    cases h
    simp
  | (column, value) :: entries, cs, h => by
    rw [List.mapM_cons] at h
    obtain ⟨c, hc, h⟩ := bind_eq_ok.mp h
    obtain ⟨name, hname, hc⟩ := bind_eq_ok.mp hc
    obtain ⟨rest, hrest, h⟩ := bind_eq_ok.mp h
    cases hc
    cases h
    obtain ⟨hlive, hvalues⟩ := equalities_eq_ok row stray hrest
    refine ⟨List.forall_mem_cons.mpr ⟨isEmpty_equals name value, hlive⟩, ?_⟩
    rw [List.map_cons, List.map_cons, hvalues, value_equals, entryValue, testValue, hname]

/-- What a disjunction comes to, by what its branches come to. -/
theorem result_conjuncts_any {members : List Filter} {cs : List Condition}
    (h : (conjuncts (.any members)).result = .ok cs) :
    ((branches members).result = .ok none ∧ cs = []) ∨
      ((branches members).result = .ok (some []) ∧ cs = []) ∨
        ∃ c ds, (branches members).result = .ok (some (c :: ds)) ∧ cs = [.any (c :: ds)] := by
  unfold conjuncts at h
  obtain ⟨r, hr, h⟩ := Outcome.result_bind_eq_ok.mp h
  rw [hr]
  rcases r with _ | _ | ⟨c, ds⟩ <;> cases h
  · exact Or.inl ⟨rfl, rfl⟩
  · exact Or.inr (Or.inl ⟨rfl, rfl⟩)
  · exact Or.inr (Or.inr ⟨c, ds, rfl, rfl⟩)

/-- A branch that comes to nothing ends the branches; any other one goes before the rest. -/
theorem result_branches_cons {member : Filter} {members : List Filter}
    {r : Option (List Condition)} (h : (branches (member :: members)).result = .ok r) :
    ∃ ds, member.conjuncts.result = .ok ds ∧
      ((collapse ds = none ∧ r = none) ∨
        ∃ c rest, collapse ds = some c ∧ (branches members).result = .ok rest ∧
          r = rest.map (c :: ·)) := by
  unfold branches at h
  obtain ⟨ds, hds, h⟩ := Outcome.result_bind_eq_ok.mp h
  refine ⟨ds, hds, ?_⟩
  cases hc : collapse ds with
  | none =>
    rw [hc] at h
    cases h
    exact Or.inl ⟨rfl, rfl⟩
  | some c =>
    rw [hc] at h
    obtain ⟨rest, hrest, h⟩ := Outcome.result_bind_eq_ok.mp h
    cases h
    exact Or.inr ⟨c, rest, rfl, hrest, rfl⟩

mutual

/-- **The conditions that a filter adds stand for its value.** -/
theorem standFor_conjuncts (row : Row) (stray : Filter → Truth) : ∀ (f : Filter)
    (cs : List Condition), f.conjuncts.result = .ok cs → StandFor row cs (f.value row stray)
  | .properties record, cs, h => by
    unfold conjuncts at h
    obtain ⟨hlive, hvalues⟩ := equalities_eq_ok row stray h
    exact ⟨hlive, by rw [value, hvalues]⟩
  | .all members, cs, h => by
    unfold conjuncts at h
    rw [value]
    exact standFor_memberConditions row stray members cs h
  | .any members, cs, h => by
    obtain ⟨hnone, hsome⟩ := branches_spec row stray members
    rw [value]
    rcases result_conjuncts_any h with ⟨hb, rfl⟩ | ⟨hb, rfl⟩ | ⟨c, ds, hb, rfl⟩
    · rw [hnone hb, ite_self]
      exact ⟨by simp, rfl⟩
    · have hnil : values row stray members = [] := ((hsome [] hb).2).symm
      cases members with
      | nil => exact ⟨by simp, rfl⟩
      | cons member members => rw [values] at hnil; cases hnil
    · obtain ⟨hlive, hvalues⟩ := hsome (c :: ds) hb
      have hne : members.isEmpty = false := by
        cases members with
        | nil => rw [values] at hvalues; cases hvalues
        | cons member members => rfl
      rw [hne, if_neg (by decide), ← hvalues, ← Condition.memberValues_eq_map row hlive,
        ← Condition.value]
      refine standFor_singleton ?_
      simp [Condition.isEmpty, Condition.areEmpty, hlive c List.mem_cons_self]
  | .not inner, cs, h => by
    unfold conjuncts at h
    obtain ⟨ds, hds, h⟩ := Outcome.result_bind_eq_ok.mp h
    have ih := standFor_conjuncts row stray inner ds hds
    rw [value]
    cases hc : collapse ds with
    | none =>
      rw [hc] at h
      cases h
      rw [value_of_collapse_eq_none ih hc]
      exact standFor_singleton rfl
    | some c =>
      rw [hc] at h
      cases h
      obtain ⟨hlive, hvalue⟩ := collapse_eq_some ih hc
      rw [← hvalue]
      exact standFor_singleton hlive
  | .oneOf column values, cs, h => by
    unfold conjuncts at h
    rw [value]
    exact standFor_onColumn (fun name => by unfold Condition.oneOf; split <;> rfl)
      (fun name => value_oneOf row name values) h
  | .noneOf column values, cs, h => by
    unfold conjuncts at h
    rw [value]
    exact standFor_onColumn (fun name => by unfold Condition.noneOf; split <;> rfl)
      (fun name => value_noneOf row name values) h
  | .missing column, cs, h => by
    unfold conjuncts at h
    rw [value]
    exact standFor_onColumn (fun name => rfl) (fun name => rfl) h
  | .present column, cs, h => by
    unfold conjuncts at h
    rw [value]
    exact standFor_onColumn (fun name => rfl)
      (fun name => by
        rw [Condition.value, Truth.negatedIf_true, Truth.not_ofBool]) h
  | .between column low high, cs, h => by
    unfold conjuncts at h
    rw [value]
    exact standFor_onColumn (fun name => rfl) (fun name => rfl) h
  | .outside column low high, cs, h => by
    unfold conjuncts at h
    rw [value]
    exact standFor_onColumn (fun name => rfl) (fun name => rfl) h
  | .bounded side column bound, cs, h => by
    unfold conjuncts at h
    rw [value]
    exact standFor_onColumn (fun name => rfl) (fun name => rfl) h
  | .fragment sql bindings, cs, h => by
    unfold conjuncts at h
    cases h
    rw [value]
    exact standFor_singleton rfl
  | .deferred ticket (.ok f), cs, h => by
    unfold conjuncts at h
    rw [value]
    exact standFor_conjuncts row stray f cs h
  | .deferred ticket (.error fault), cs, h => by
    unfold conjuncts at h
    cases h

/-- The conditions of the members of a conjunction stand for the conjunction. -/
theorem standFor_memberConditions (row : Row) (stray : Filter → Truth) :
    ∀ (members : List Filter) (cs : List Condition), (memberConditions members).result = .ok cs →
      StandFor row cs (Truth.all (values row stray members))
  | [], cs, h => by
    unfold memberConditions at h
    cases h
    exact ⟨by simp, by rw [values]; rfl⟩
  | member :: members, cs, h => by
    unfold memberConditions at h
    obtain ⟨ds, hds, h⟩ := Outcome.result_bind_eq_ok.mp h
    obtain ⟨rest, hrest, h⟩ := Outcome.result_bind_eq_ok.mp h
    have hm := standFor_conjuncts row stray member ds hds
    have hrestValue := standFor_memberConditions row stray members rest hrest
    rw [values, Truth.all_cons]
    cases hc : collapse ds with
    | none =>
      rw [hc] at h
      cases h
      rw [value_of_collapse_eq_none hm hc]
      exact hrestValue
    | some c =>
      rw [hc] at h
      cases h
      obtain ⟨hclive, hcvalue⟩ := collapse_eq_some hm hc
      rw [← hcvalue]
      exact hrestValue.cons hclive

/-- The conditions of the branches of a disjunction have the values of the branches. Where there are
none, because a branch restricts nothing, the disjunction holds. -/
theorem branches_spec (row : Row) (stray : Filter → Truth) :
    ∀ (members : List Filter),
      ((branches members).result = .ok none → Truth.any (values row stray members) = .yes) ∧
      ∀ cs, (branches members).result = .ok (some cs) →
        (∀ c ∈ cs, c.isEmpty = false) ∧ cs.map (Condition.value row) = values row stray members
  | [] => by
    unfold branches
    rw [values]
    constructor
    · intro h
      cases h
    · intro cs h
      cases h
      simp
  | member :: members => by
    obtain ⟨ihnone, ihsome⟩ := branches_spec row stray members
    rw [values]
    constructor
    · intro h
      obtain ⟨ds, hds, ⟨hc, _⟩ | ⟨c, rest, hc, hrest, hr⟩⟩ := result_branches_cons h
      · have hm := standFor_conjuncts row stray member ds hds
        rw [value_of_collapse_eq_none hm hc, Truth.any_cons, Truth.yes_or]
      · rw [Option.map_eq_none_iff.mp hr.symm] at hrest
        rw [Truth.any_cons, ihnone hrest, Truth.or_yes]
    · intro cs h
      obtain ⟨ds, hds, ⟨_, hr⟩ | ⟨c, rest, hc, hrest, hr⟩⟩ := result_branches_cons h
      · cases hr
      · have hm := standFor_conjuncts row stray member ds hds
        obtain ⟨cs', rfl, rfl⟩ := Option.map_eq_some_iff.mp hr.symm
        obtain ⟨hclive, hcvalue⟩ := collapse_eq_some hm hc
        obtain ⟨hlive, hvalues⟩ := ihsome cs' hrest
        refine ⟨List.forall_mem_cons.mpr ⟨hclive, hlive⟩, ?_⟩
        rw [List.map_cons, hvalues, hcvalue]

end

/-- **Compilation keeps the meaning of a filter,** on every row and however the tests that no
condition stands for are read. -/
theorem compile_value (row : Row) (stray : Filter → Truth) (f : Filter) :
    (∀ c, f.compile.result = .ok (some c) → c.value row = f.value row stray) ∧
      (f.compile.result = .ok none → f.value row stray = .yes) := by
  constructor
  · intro c h
    obtain ⟨cs, hcs, h⟩ := Outcome.result_bind_eq_ok.mp h
    cases hc : collapse cs with
    | none => rw [hc] at h; cases h
    | some d =>
      rw [hc] at h
      cases h
      exact (collapse_eq_some (standFor_conjuncts row stray f cs hcs) hc).2
  · intro h
    obtain ⟨cs, hcs, h⟩ := Outcome.result_bind_eq_ok.mp h
    cases hc : collapse cs with
    | none => exact value_of_collapse_eq_none (standFor_conjuncts row stray f cs hcs) hc
    | some d => rw [hc] at h; cases h

/-- A row on which one column is missing and all comparisons but those with `true` are unknown. -/
def sparseRow : Row where
  compares _ _ v := if v = .bool true then .yes else .unknown
  missing name := name.parts = ["a"]
  fragment _ _ := .unknown

/-- Empty groups, a deferred filter, a branch after the one that restricts nothing, and a column in
it that is no name. -/
def mixedFilter : Filter :=
  .all [.any [.equals "a" .null, .oneOf "b" [.bool false, .bool true]],
    .not (.deferred 0 (.ok (.outside "c" (.bool true) .null))),
    .any [.all [.any []], .missing "no name"]]

theorem compile_value_mixedFilter :
    (∃ c, mixedFilter.compile.result = .ok (some c) ∧
      c.value sparseRow = mixedFilter.value sparseRow fun _ => .no) ∧
    (Filter.any [mixedFilter, .all [], .missing "?"]).compile.result = .ok none ∧
    (Filter.any [mixedFilter, .all [], .missing "?"]).value sparseRow (fun _ => .no) = .yes := by
  have hsome : mixedFilter.compile.gives Option.isSome = true := by decide +kernel
  have hnone : (Filter.any [mixedFilter, .all [], .missing "?"]).compile.gives Option.isNone =
      true := by decide +kernel
  obtain ⟨o, ho, hsome⟩ := Outcome.exists_of_gives hsome
  obtain ⟨c, rfl⟩ := Option.isSome_iff_exists.mp hsome
  obtain ⟨p, hp, hnone⟩ := Outcome.exists_of_gives hnone
  rw [Option.isNone_iff_eq_none] at hnone
  subst hnone
  exact ⟨⟨c, ho, (compile_value sparseRow _ mixedFilter).1 c ho⟩, hp,
    (compile_value sparseRow _ _).2 hp⟩

end Filter

end Rowset
