import Rowset.Proofs.Compilation
import Rowset.Proofs.Markers
import Mathlib.Data.List.ReduceOption

/-!
# What a filter adds

`Adds` says which conditions a filter adds when its compilation succeeds, with one way for each kind
of filter, and `AddsEach` says what the members of a group come to, one after the other. Whatever
holds of all compiled filters is shown along these ways, without another look at how failures are
passed on (`adds_of_result`).

None of the conditions is empty (`Adds.live`), so none is lost where they are collapsed. They bring
no fragment that is not one of the filter (`Adds.fragments`), and there are none exactly when the
filter is trivial (`Adds.eq_nil_iff`).
-/

namespace Rowset

/-! ### Names read one after the other -/

namespace Name

theorem parseAll_cons_eq (text : String) (texts : List String) :
    parseAll (text :: texts) =
      parse text >>= fun name => parseAll texts >>= fun names => pure (name :: names) :=
  List.mapM_cons

theorem parseAll_append_eq (texts more : List String) :
    parseAll (texts ++ more) =
      parseAll texts >>= fun names => parseAll more >>= fun rest => pure (names ++ rest) :=
  List.mapM_append

theorem parseAll_cons {text : String} {texts : List String} {names : List Name} :
    parseAll (text :: texts) = .ok names ↔
      ∃ name rest, parse text = .ok name ∧ parseAll texts = .ok rest ∧ names = name :: rest := by
  rw [parseAll_cons_eq]
  constructor
  · intro h
    obtain ⟨name, hname, h⟩ := bind_eq_ok.mp h
    obtain ⟨rest, hrest, h⟩ := bind_eq_ok.mp h
    cases h
    exact ⟨name, rest, hname, hrest, rfl⟩
  · rintro ⟨name, rest, hname, hrest, rfl⟩
    rw [hname, hrest]
    rfl

theorem parseAll_nil : parseAll [] = .ok [] := rfl

theorem parseAll_singleton {text : String} {name : Name} (h : parse text = .ok name) :
    parseAll [text] = .ok [name] :=
  parseAll_cons.mpr ⟨name, [], h, parseAll_nil, rfl⟩

theorem parseAll_append {texts more : List String} {names rest : List Name}
    (h : parseAll texts = .ok names) (hmore : parseAll more = .ok rest) :
    parseAll (texts ++ more) = .ok (names ++ rest) := by
  rw [parseAll_append_eq, h, hmore]
  rfl

theorem exists_parseAll {texts : List String} (h : ∀ text ∈ texts, ∃ name, parse text = .ok name) :
    ∃ names, parseAll texts = .ok names := by
  induction texts with
  | nil => exact ⟨[], parseAll_nil⟩
  | cons text texts ih =>
    obtain ⟨name, hname⟩ := h text List.mem_cons_self
    obtain ⟨names, hnames⟩ := ih fun t ht => h t (List.mem_cons_of_mem text ht)
    exact ⟨name :: names, parseAll_cons.mpr ⟨name, names, hname, hnames, rfl⟩⟩

theorem forall₂_of_parseAll {texts : List String} {names : List Name}
    (h : parseAll texts = .ok names) :
    List.Forall₂ (fun text name => parse text = .ok name) texts names :=
  forall₂_of_mapM h

theorem length_of_parseAll {texts : List String} {names : List Name}
    (h : parseAll texts = .ok names) : names.length = texts.length :=
  (forall₂_of_parseAll h).length_eq.symm

/-- Steps that take in a name each are the steps after all the names have been read. -/
theorem foldlM_parse_eq {α β γ : Type} (column : α → String) (tag : α → γ)
    (put : β → Name × γ → β) (xs : List α) (b : β) :
    xs.foldlM (fun b x => parse (column x) >>= fun name => pure (put b (name, tag x))) b =
      parseAll (xs.map column) >>= fun names => pure ((names.zip (xs.map tag)).foldl put b) := by
  induction xs generalizing b with
  | nil => rfl
  | cons x xs ih =>
    rw [List.foldlM_cons, List.map_cons, parseAll_cons_eq]
    cases parse (column x) with
    | error fault => rfl
    | ok name =>
      refine (ih _).trans ?_
      cases parseAll (xs.map column) <;> rfl

/-- Things that are made of a name each are made once all the names have been read. -/
theorem mapM_parse_eq {α β : Type} (column : α → String) (make : Name → α → β) (xs : List α) :
    (xs.mapM fun x => parse (column x) >>= fun name => pure (make name x)) =
      parseAll (xs.map column) >>= fun names =>
        pure ((names.zip xs).map fun (name, x) => make name x) := by
  induction xs with
  | nil => rfl
  | cons x xs ih =>
    rw [List.mapM_cons, ih, List.map_cons, parseAll_cons_eq]
    cases parse (column x) with
    | error fault => rfl
    | ok name => cases parseAll (xs.map column) <;> rfl

end Name

namespace Filter

/-! ### Derivations -/

/-- The column and the test of the filters that test one column. -/
def test? : Filter → Option (String × (Name → Condition))
  | .oneOf column values => some (column, fun name => .oneOf name values)
  | .noneOf column values => some (column, fun name => .noneOf name values)
  | .missing column => some (column, fun name => .null name false)
  | .present column => some (column, fun name => .null name true)
  | .between column low high => some (column, fun name => .between name low high false)
  | .outside column low high => some (column, fun name => .between name low high true)
  | .bounded side column value => some (column, fun name => .compare name (.bound side) value)
  | _ => none

mutual

/-- **A filter adds conditions.** -/
inductive Adds : Filter → List Condition → Prop where
  | properties {record : Record} {names : List Name}
      (h : Name.parseAll record.columns = .ok names) : Adds (.properties record)
        ((names.zip record.entries).map fun (name, entry) => .equals name entry.2)
  | all {members : List Filter} {parts : List (Option Condition)} (h : AddsEach members parts) :
      Adds (.all members) parts.reduceOption
  /-- A branch comes to nothing; those behind it are not looked at. -/
  | anyOpen {before behind : List Filter} {member : Filter} {parts : List (Option Condition)}
      {ds : List Condition} (hbefore : AddsEach before parts) (h : Adds member ds)
      (hnone : collapse ds = none) : Adds (.any (before ++ member :: behind)) []
  | anyNone : Adds (.any []) []
  | any {members : List Filter} {c : Condition} {cs : List Condition}
      (h : AddsEach members ((c :: cs).map some)) : Adds (.any members) [.any (c :: cs)]
  | notNever {inner : Filter} {ds : List Condition} (h : Adds inner ds)
      (hnone : collapse ds = none) : Adds (.not inner) [.never]
  | not {inner : Filter} {ds : List Condition} {c : Condition} (h : Adds inner ds)
      (hsome : collapse ds = some c) : Adds (.not inner) [.not c]
  | test {f : Filter} {column : String} {test : Name → Condition} {name : Name}
      (htest : f.test? = some (column, test)) (h : Name.parse column = .ok name) :
      Adds f [test name]
  | fragment {sql : String} {bindings : List Value} :
      Adds (.fragment sql bindings) [.fragment sql bindings]
  | deferred {ticket : Nat} {f : Filter} {cs : List Condition} (h : Adds f cs) :
      Adds (.deferred ticket (.ok f)) cs

/-- The members of a group come to one condition each, or to nothing. -/
inductive AddsEach : List Filter → List (Option Condition) → Prop where
  | nil : AddsEach [] []
  | cons {member : Filter} {members : List Filter} {ds : List Condition}
      {parts : List (Option Condition)} (h : Adds member ds) (hs : AddsEach members parts) :
      AddsEach (member :: members) (collapse ds :: parts)

end

/-- The columns of a record are read before anything is made of them. -/
theorem equalities_eq (record : Record) :
    equalities record = Name.parseAll record.columns >>= fun names =>
      pure ((names.zip record.entries).map fun (name, entry) => .equals name entry.2) :=
  Name.mapM_parse_eq Prod.fst (fun name entry => Condition.equals name entry.2) record.entries

theorem conjuncts_of_test? {f : Filter} {column : String} {test : Name → Condition}
    (h : f.test? = some (column, test)) : f.conjuncts = onColumn column test := by
  cases f <;> cases h <;> rw [conjuncts]

theorem adds_of_onColumn {f : Filter} {column : String} {test : Name → Condition}
    {cs : List Condition} (htest : f.test? = some (column, test))
    (h : f.conjuncts.result = .ok cs) : Adds f cs := by
  rw [conjuncts_of_test? htest, onColumn, Outcome.ofExcept] at h
  cases hp : Name.parse column with
  | error fault => rw [hp] at h; cases h
  | ok name =>
    rw [hp] at h
    cases h
    exact .test htest hp

mutual

/-- **A compilation that succeeds follows one of these ways.** -/
theorem adds_of_result : ∀ (f : Filter) (cs : List Condition), f.conjuncts.result = .ok cs →
    Adds f cs
  | .properties record, cs, h => by
    unfold conjuncts at h
    obtain ⟨names, hnames, h⟩ := bind_eq_ok.mp ((equalities_eq record).symm.trans h)
    cases h
    exact .properties hnames
  | .all members, cs, h => by
    unfold conjuncts at h
    obtain ⟨parts, hparts, rfl⟩ := addsEach_of_memberConditions members cs h
    exact .all hparts
  | .any members, cs, h => by
    rcases result_conjuncts_any h with ⟨hb, rfl⟩ | ⟨hb, rfl⟩ | ⟨c, ds, hb, rfl⟩
    · obtain ⟨before, member, behind, parts, ds, rfl, hbefore, hmember, hnone⟩ :=
        (addsEach_of_branches members).1 hb
      exact .anyOpen hbefore hmember hnone
    · cases (addsEach_of_branches members).2 [] hb
      exact .anyNone
    · exact .any ((addsEach_of_branches members).2 (c :: ds) hb)
  | .not inner, cs, h => by
    unfold conjuncts at h
    obtain ⟨ds, hds, h⟩ := Outcome.result_bind_eq_ok.mp h
    have ih := adds_of_result inner ds hds
    cases hc : collapse ds with
    | none =>
      rw [hc] at h
      cases h
      exact .notNever ih hc
    | some c =>
      rw [hc] at h
      cases h
      exact .not ih hc
  | .oneOf .., cs, h => adds_of_onColumn rfl h
  | .noneOf .., cs, h => adds_of_onColumn rfl h
  | .missing _, cs, h => adds_of_onColumn rfl h
  | .present _, cs, h => adds_of_onColumn rfl h
  | .between .., cs, h => adds_of_onColumn rfl h
  | .outside .., cs, h => adds_of_onColumn rfl h
  | .bounded .., cs, h => adds_of_onColumn rfl h
  | .fragment sql bindings, cs, h => by
    unfold conjuncts at h
    cases h
    exact .fragment
  | .deferred ticket (.ok f), cs, h => by
    unfold conjuncts at h
    exact .deferred (adds_of_result f cs h)
  | .deferred ticket (.error fault), cs, h => by
    unfold conjuncts at h
    cases h

theorem addsEach_of_memberConditions : ∀ (members : List Filter) (cs : List Condition),
    (memberConditions members).result = .ok cs →
      ∃ parts, AddsEach members parts ∧ cs = parts.reduceOption
  | [], cs, h => by
    unfold memberConditions at h
    cases h
    exact ⟨[], .nil, rfl⟩
  | member :: members, cs, h => by
    unfold memberConditions at h
    obtain ⟨ds, hds, h⟩ := Outcome.result_bind_eq_ok.mp h
    obtain ⟨rest, hrest, h⟩ := Outcome.result_bind_eq_ok.mp h
    obtain ⟨parts, hparts, rfl⟩ := addsEach_of_memberConditions members rest hrest
    cases h
    refine ⟨collapse ds :: parts, .cons (adds_of_result member ds hds) hparts, ?_⟩
    cases collapse ds <;> rfl

/-- The branches come to a condition each, or one of them comes to nothing. -/
theorem addsEach_of_branches : ∀ (members : List Filter),
    ((branches members).result = .ok none → ∃ before member behind parts ds,
      members = before ++ member :: behind ∧ AddsEach before parts ∧ Adds member ds ∧
        collapse ds = none) ∧
    ∀ cs, (branches members).result = .ok (some cs) → AddsEach members (cs.map some)
  | [] => by
    unfold branches
    constructor
    · intro h
      cases h
    · intro cs h
      cases h
      exact .nil
  | member :: members => by
    obtain ⟨ihnone, ihsome⟩ := addsEach_of_branches members
    constructor
    · intro h
      obtain ⟨ds, hds, ⟨hc, _⟩ | ⟨c, rest, hc, hrest, hr⟩⟩ := result_branches_cons h
      · exact ⟨[], member, members, [], ds, rfl, .nil, adds_of_result member ds hds, hc⟩
      · rw [Option.map_eq_none_iff.mp hr.symm] at hrest
        obtain ⟨before, last, behind, parts, es, rfl, hbefore, hlast, hes⟩ := ihnone hrest
        exact ⟨member :: before, last, behind, _, es, rfl,
          .cons (adds_of_result member ds hds) hbefore, hlast, hes⟩
    · intro cs h
      obtain ⟨ds, hds, ⟨_, hr⟩ | ⟨c, rest, hc, hrest, hr⟩⟩ := result_branches_cons h
      · cases hr
      · obtain ⟨cs', rfl, rfl⟩ := Option.map_eq_some_iff.mp hr.symm
        rw [List.map_cons, ← hc]
        exact .cons (adds_of_result member ds hds) (ihsome cs' hrest)

end

/-! ### None of the conditions is empty -/

section Collapse
variable {ds : List Condition}

theorem ofList_of_live (h : ∀ d ∈ ds, d.isEmpty = false) : Conjunction.ofList ds = ⟨ds⟩ := by
  have hmembers := members_ofList h
  cases hg : Conjunction.ofList ds
  rw [hg] at hmembers
  exact congrArg Conjunction.mk hmembers

theorem collapse_eq_none_iff (h : ∀ d ∈ ds, d.isEmpty = false) : collapse ds = none ↔ ds = [] := by
  rw [collapse, ofList_of_live h]
  rcases ds with _ | ⟨d, _ | ⟨e, ds⟩⟩ <;> simp [Conjunction.condition?]

theorem isEmpty_of_collapse (h : ∀ d ∈ ds, d.isEmpty = false) {c : Condition}
    (hsome : collapse ds = some c) : c.isEmpty = false := by
  rw [collapse, ofList_of_live h] at hsome
  rcases ds with _ | ⟨d, _ | ⟨e, ds⟩⟩
  · cases hsome
  · cases hsome
    exact h _ List.mem_cons_self
  · cases hsome
    rw [Condition.isEmpty, Condition.areEmpty, h d List.mem_cons_self]
    rfl

/-- What is read off conditions one after the other is read off the one they come to. -/
theorem flatMap_collapse {α : Type} {read : Condition → List α}
    (hall : ∀ members, read (.all members) = members.flatMap read)
    (h : ∀ d ∈ ds, d.isEmpty = false) :
    (collapse ds).toList.flatMap read = ds.flatMap read := by
  rw [collapse, ofList_of_live h]
  rcases ds with _ | ⟨d, _ | ⟨e, ds⟩⟩
  · rfl
  · rfl
  · show [Condition.all (d :: e :: ds)].flatMap read = _
    rw [List.flatMap_singleton, hall]

end Collapse

theorem isEmpty_of_test? {f : Filter} {column : String} {test : Name → Condition}
    (h : f.test? = some (column, test)) (name : Name) : (test name).isEmpty = false := by
  cases f <;> cases h
  case oneOf =>
    dsimp only [Condition.oneOf]
    split <;> rfl
  case noneOf =>
    dsimp only [Condition.noneOf]
    split <;> rfl
  all_goals rfl

mutual

/-- **No condition that a filter adds is empty.** -/
theorem Adds.live : ∀ {f : Filter} {cs : List Condition}, Adds f cs → ∀ c ∈ cs, c.isEmpty = false
  | _, _, .properties _, c, hc => by
    obtain ⟨⟨name, entry⟩, -, rfl⟩ := List.mem_map.mp hc
    exact isEmpty_equals name entry.2
  | _, _, .all h, c, hc => h.live c (List.reduceOption_mem_iff.mp hc)
  | _, _, .anyOpen .., c, hc => by cases hc
  | _, _, .anyNone, c, hc => by cases hc
  | _, _, .any h, c, hc => by
    obtain rfl := List.mem_singleton.mp hc
    rw [Condition.isEmpty, Condition.areEmpty, h.live _ List.mem_cons_self]
    rfl
  | _, _, .notNever .., c, hc => by
    obtain rfl := List.mem_singleton.mp hc
    rfl
  | _, _, .not h hsome, c, hc => by
    obtain rfl := List.mem_singleton.mp hc
    rw [Condition.isEmpty]
    exact isEmpty_of_collapse h.live hsome
  | _, _, .test htest _, c, hc => by
    obtain rfl := List.mem_singleton.mp hc
    exact isEmpty_of_test? htest _
  | _, _, .fragment, c, hc => by
    obtain rfl := List.mem_singleton.mp hc
    rfl
  | _, _, .deferred h, c, hc => h.live c hc

theorem AddsEach.live : ∀ {members : List Filter} {parts : List (Option Condition)},
    AddsEach members parts → ∀ c, some c ∈ parts → c.isEmpty = false
  | _, _, .nil, c, hc => by cases hc
  | _, _, .cons h hs, c, hc => by
    rcases List.mem_cons.mp hc with hsome | hc
    · exact isEmpty_of_collapse h.live hsome.symm
    · exact hs.live c hc

end

/-! ### Fragments -/

mutual

/-- The fragments of the caller in a filter, also in the parts that are not looked at when it is
compiled. -/
def fragments : Filter → List Statement
  | .all members => memberFragments members
  | .any members => memberFragments members
  | .not inner => inner.fragments
  | .fragment sql bindings => [⟨sql, bindings⟩]
  | .deferred _ (.ok f) => f.fragments
  | _ => []

/-- The fragments of the caller in some filters. -/
def memberFragments : List Filter → List Statement
  | [] => []
  | member :: members => member.fragments ++ memberFragments members

end

theorem fragments_of_test? {f : Filter} {column : String} {test : Name → Condition}
    (h : f.test? = some (column, test)) (name : Name) : (test name).fragments = [] := by
  cases f <;> cases h
  case oneOf =>
    dsimp only [Condition.oneOf]
    split <;> rfl
  case noneOf =>
    dsimp only [Condition.noneOf]
    split <;> rfl
  all_goals rfl

theorem fragments_equals (name : Name) (value : Value) :
    (Condition.equals name value).fragments = [] := by
  cases value <;> rfl

theorem fragments_collapse {ds : List Condition} (h : ∀ d ∈ ds, d.isEmpty = false) :
    (collapse ds).toList.flatMap Condition.fragments = ds.flatMap Condition.fragments :=
  flatMap_collapse (fun members => by
    rw [Condition.fragments, Condition.memberFragments_eq_flatMap]) h

theorem reduceOption_map_some (cs : List Condition) : (cs.map some).reduceOption = cs := by
  rw [List.reduceOption, List.filterMap_map, Function.id_comp, List.filterMap_some]

/-- What a member comes to stands before what the others come to. -/
theorem flatMap_reduceOption_cons {α : Type} (read : Condition → List α) (part : Option Condition)
    (parts : List (Option Condition)) : (part :: parts).reduceOption.flatMap read =
      part.toList.flatMap read ++ parts.reduceOption.flatMap read := by
  cases part with
  | none => rfl
  | some c => rw [List.reduceOption_cons_of_some, List.flatMap_cons, Option.toList_some,
      List.flatMap_singleton]

mutual

/-- **The conditions bring only fragments of the filter.** -/
theorem Adds.fragments : ∀ {f : Filter} {cs : List Condition}, Adds f cs →
    cs.flatMap Condition.fragments ⊆ f.fragments
  | _, _, .properties _ => by
    rw [List.flatMap_map, List.flatMap_eq_nil_iff.mpr]
    · exact List.nil_subset _
    · intro pair _
      exact fragments_equals pair.1 pair.2.2
  | _, _, .all h => by
    rw [Filter.fragments]
    exact h.fragments
  | _, _, .anyOpen .. => List.nil_subset _
  | _, _, .anyNone => List.nil_subset _
  | _, _, .any h => by
    have ih := h.fragments
    rw [reduceOption_map_some] at ih
    rw [Filter.fragments, List.flatMap_singleton, Condition.fragments,
      Condition.memberFragments_eq_flatMap]
    exact ih
  | _, _, .notNever .. => List.nil_subset _
  | _, _, .not h hsome => by
    have ih := h.fragments
    rw [← fragments_collapse h.live, hsome, Option.toList_some] at ih
    rw [Filter.fragments]
    exact ih
  | _, _, .test htest _ => by
    rw [List.flatMap_singleton, fragments_of_test? htest]
    exact List.nil_subset _
  | _, _, .fragment => List.Subset.refl _
  | _, _, .deferred h => by
    rw [Filter.fragments]
    exact h.fragments

theorem AddsEach.fragments : ∀ {members : List Filter} {parts : List (Option Condition)},
    AddsEach members parts →
      parts.reduceOption.flatMap Condition.fragments ⊆ memberFragments members
  | _, _, .nil => List.nil_subset _
  | _, _, .cons h hs => by
    rw [flatMap_reduceOption_cons, fragments_collapse h.live, memberFragments]
    intro s hmem
    exact List.mem_append.mpr ((List.mem_append.mp hmem).imp (h.fragments ·) (hs.fragments ·))

end

/-! ### Trivial filters -/

mutual

/-- **Holds of the filters that restrict nothing:** a record without columns, a conjunction of
trivial filters, a disjunction that is empty or has a trivial branch, and what is deferred to one
of these. -/
def isTrivial : Filter → Bool
  | .properties record => record.isEmpty
  | .all members => areTrivial members
  | .any members => members.isEmpty || hasTrivial members
  | .deferred _ (.ok f) => f.isTrivial
  | _ => false

/-- Holds of the lists of trivial filters. -/
def areTrivial : List Filter → Bool
  | [] => true
  | member :: members => member.isTrivial && areTrivial members

/-- Holds of the lists with a trivial filter. -/
def hasTrivial : List Filter → Bool
  | [] => false
  | member :: members => member.isTrivial || hasTrivial members

end

theorem hasTrivial_append (before behind : List Filter) :
    hasTrivial (before ++ behind) = (hasTrivial before || hasTrivial behind) := by
  induction before with
  | nil => rfl
  | cons member before ih => rw [List.cons_append, hasTrivial, hasTrivial, ih, Bool.or_assoc]

theorem isTrivial_of_test? {f : Filter} {column : String} {test : Name → Condition}
    (h : f.test? = some (column, test)) : f.isTrivial = false := by
  cases f <;> cases h <;> rfl

mutual

/-- **A filter adds no condition exactly when it is trivial.** -/
theorem Adds.eq_nil_iff : ∀ {f : Filter} {cs : List Condition}, Adds f cs →
    (cs = [] ↔ f.isTrivial = true)
  | _, _, .properties h => by
    have hlength := Name.length_of_parseAll h
    rw [Record.columns, List.length_map] at hlength
    rw [isTrivial, Record.isEmpty, List.map_eq_nil_iff, List.isEmpty_iff, ← List.length_eq_zero_iff,
      ← List.length_eq_zero_iff, List.length_zip]
    omega
  | _, _, .all h => by
    rw [isTrivial]
    exact h.areTrivial_iff
  | _, _, .anyOpen _ h hnone => by
    have hopen := (h.eq_nil_iff).mp ((collapse_eq_none_iff h.live).mp hnone)
    simp [isTrivial, hasTrivial_append, hasTrivial, hopen]
  | _, _, .anyNone => by simp [isTrivial]
  | _, _, @Adds.any members _ _ h => by
    have hopen := h.hasTrivial_iff
    have hne : members ≠ [] := by
      rintro rfl
      cases h
    simp [isTrivial, hne, ← hopen]
  | _, _, .notNever .. => by simp [isTrivial]
  | _, _, .not .. => by simp [isTrivial]
  | _, _, .test htest _ => by simp [isTrivial_of_test? htest]
  | _, _, .fragment => by simp [isTrivial]
  | _, _, .deferred h => by
    rw [isTrivial]
    exact h.eq_nil_iff

theorem AddsEach.areTrivial_iff : ∀ {members : List Filter} {parts : List (Option Condition)},
    AddsEach members parts → (parts.reduceOption = [] ↔ areTrivial members = true)
  | _, _, .nil => by simp [areTrivial]
  | _, _, @AddsEach.cons _ _ ds _ h hs => by
    have hmember := (collapse_eq_none_iff h.live).trans h.eq_nil_iff
    have hmembers := hs.areTrivial_iff
    rw [areTrivial, Bool.and_eq_true, ← hmember, ← hmembers]
    cases collapse ds <;> simp

theorem AddsEach.hasTrivial_iff : ∀ {members : List Filter} {parts : List (Option Condition)},
    AddsEach members parts → (none ∈ parts ↔ hasTrivial members = true)
  | _, _, .nil => by simp [hasTrivial]
  | _, _, @AddsEach.cons _ _ ds _ h hs => by
    have hmember := (collapse_eq_none_iff h.live).trans h.eq_nil_iff
    have hmembers := hs.hasTrivial_iff
    rw [hasTrivial, Bool.or_eq_true, List.mem_cons, ← hmember, ← hmembers, eq_comm]

end

end Filter

end Rowset
