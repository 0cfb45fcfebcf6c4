import Rowset.Proofs.Compilation
import Rowset.Proofs.Reading.Condition

/-!
# How conditions are grouped

A condition is a tree, and its text is read back by the precedences of the language. Whether both
group the same tests depends on the parentheses, which are set where a part has more than one member
with content. A group with a single such member takes no parentheses, and then an OR of that member
stands next to whatever stands beside the group.

`keepsGroups` says where this is harmless, and it says so exactly (`compared_shown`): the text and
the tree agree for all truth values of the tests, or there are truth values that tell them apart.
-/

namespace Rowset

open Reading
open Reading.Formula (Compared ComparedAll)

namespace Condition

/-! ### The tree -/

/-- What a fragment of the caller is read as on its own. -/
def fragmentFormula (sql : String) : Formula :=
  Clauses.formula ((read? sql).getD [])

mutual

/-- **The formula that a condition is,** over its members with content. -/
def formula : Condition → Formula
  | .all members => .all (memberFormulas members)
  | .any members => .any (memberFormulas members)
  | .not inner => .not inner.formula
  | .fragment sql _ => fragmentFormula sql
  | test => .predicate test.words

/-- The formulas of the members with content. -/
def memberFormulas : List Condition → List Formula
  | [] => []
  | member :: members =>
    if member.isEmpty then memberFormulas members
    else member.formula :: memberFormulas members

end

mutual

/-- Holds of the conditions whose text has an OR outside of parentheses. -/
def showsOr : Condition → Bool
  | .all members => anyShowsOr (contentCount members == 1) members
  | .any members => 1 < contentCount members || anyShowsOr true members
  | .fragment sql _ => 1 < ((read? sql).getD []).length
  | _ => false

/-- Holds of the groups with a part whose text has an OR outside of parentheses. -/
def anyShowsOr (alone : Bool) : List Condition → Bool
  | [] => false
  | member :: members =>
    !member.isEmpty && (alone || !member.isCompound) && member.showsOr || anyShowsOr alone members

end

mutual

/-- **Holds of the conditions that are grouped in text as they are in the tree:** where several
parts have to hold together, none of them has an OR outside of parentheses. -/
def keepsGroups : Condition → Bool
  | .all members =>
    membersKeepGroups members && (contentCount members == 1 || !anyShowsOr false members)
  | .any members => membersKeepGroups members
  | .not inner => inner.keepsGroups
  | _ => true

/-- Holds of the lists of conditions that keep their groups where they have content. -/
def membersKeepGroups : List Condition → Bool
  | [] => true
  | member :: members => (member.isEmpty || member.keepsGroups) && membersKeepGroups members

end

/-! ### The text -/

/-- Fragments that can each be read on their own. -/
def Complete (ss : List Statement) : Prop :=
  ∀ s ∈ ss, (read? s.sql).isSome = true

theorem length_shownMembers (alone : Bool) (members : List Condition) :
    (shownMembers alone members).length = contentCount members := by
  induction members with
  | nil => rfl
  | cons member members ih =>
    unfold contentCount at ih ⊢
    rw [shownMembers, List.countP_cons]
    split_ifs with hempty hcompound <;> simp_all

theorem proper_shown {c : Condition} (hlive : c.isEmpty = false) (hf : Complete c.fragments) :
    Clauses.Proper c.shown :=
  proper_read? (read?_render c hlive hf)

theorem proper_shownMembers (alone : Bool) {members : List Condition}
    (hf : Complete (memberFragments members)) :
    ∀ cs ∈ shownMembers alone members, Clauses.Proper cs := by
  have hparts := readParts alone members hf
  generalize renderMembers alone members = parts at hparts
  generalize shownMembers alone members = shown at hparts
  induction hparts with
  | nil => simp
  | cons hpart _ ih => exact List.forall_mem_cons.mpr ⟨proper_read? hpart, ih⟩

theorem contentCount_pos : ∀ {members : List Condition}, areEmpty members = false →
    0 < contentCount members
  | member :: members, h => by
    rw [areEmpty, Bool.and_eq_false_iff] at h
    rw [contentCount, List.countP_cons]
    by_cases hempty : member.isEmpty = true
    · have ih := contentCount_pos (h.resolve_left (by rw [hempty]; decide))
      rw [contentCount] at ih
      omega
    · rw [if_pos (by simpa using hempty)]
      omega

theorem shownMembers_ne_nil (alone : Bool) {members : List Condition}
    (h : areEmpty members = false) : shownMembers alone members ≠ [] := by
  rw [← List.length_pos_iff, length_shownMembers]
  exact contentCount_pos h

theorem length_le_length_flatten {parts : List Clauses} (h : ∀ cs ∈ parts, Clauses.Proper cs) :
    parts.length ≤ parts.flatten.length := by
  induction parts with
  | nil => exact Nat.le_refl 0
  | cons cs parts ih =>
    have hpos := List.length_pos_iff.mpr (h cs List.mem_cons_self).1
    have hrest := ih fun ds hds => h ds (List.mem_cons_of_mem cs hds)
    rw [List.flatten_cons, List.length_append, List.length_cons]
    omega

mutual

theorem showsOr_iff : ∀ c : Condition, c.isEmpty = false → Complete c.fragments →
    (c.showsOr = false ↔ c.shown.length = 1)
  | .all members, hlive, hf => by
    rw [showsOr, shown, Clauses.length_melded_eq_one (proper_shownMembers _ hf)]
    exact anyShowsOr_iff _ members hf
  | .any members, hlive, hf => by
    rw [isEmpty] at hlive
    rw [showsOr, shown, Bool.or_eq_false_iff, decide_eq_false_iff_not]
    have hparts := proper_shownMembers (contentCount members == 1) hf
    have hlength := length_shownMembers (contentCount members == 1) members
    have hle := length_le_length_flatten hparts
    have hpos := contentCount_pos hlive
    by_cases hone : contentCount members = 1
    · rw [hone, beq_self_eq_true] at hlength ⊢
      rw [anyShowsOr_iff true members hf]
      obtain ⟨cs, hcs⟩ := List.length_eq_one_iff.mp hlength
      simp [hcs]
    · constructor
      · intro h
        omega
      · intro h
        omega
  | .fragment sql bindings, _, hf => by
    have hpos := List.length_pos_iff.mpr (proper_shown rfl hf).1
    rw [showsOr, decide_eq_false_iff_not]
    rw [shown] at hpos ⊢
    omega
  | .not inner, _, _ => by simp [showsOr, shown]
  | .compare .., _, _ => by simp [showsOr, shown]
  | .null .., _, _ => by simp [showsOr, shown]
  | .memberOf .., _, _ => by simp [showsOr, shown]
  | .between .., _, _ => by simp [showsOr, shown]
  | .always, _, _ => by simp [showsOr, shown]
  | .never, _, _ => by simp [showsOr, shown]

theorem anyShowsOr_iff : ∀ (alone : Bool) (members : List Condition),
    Complete (memberFragments members) →
      (anyShowsOr alone members = false ↔ ∀ cs ∈ shownMembers alone members, cs.length = 1)
  | alone, [], _ => by simp [anyShowsOr, shownMembers]
  | alone, member :: members, hf => by
    have ih := anyShowsOr_iff alone members fun s hs => hf s (List.mem_append_right _ hs)
    rw [anyShowsOr, shownMembers, Bool.or_eq_false_iff, ih]
    by_cases hempty : member.isEmpty = true
    · rw [if_pos hempty, hempty]
      simp
    · have hlive : member.isEmpty = false := Bool.eq_false_iff.mpr hempty
      have hmember := showsOr_iff member hlive fun s hs => hf s (List.mem_append_left _ hs)
      rw [if_neg hempty, hlive]
      cases alone <;> cases hc : member.isCompound <;> simp [hmember]

end

/-! ### Both -/

mutual

/-- The text of a condition, compared with the tree. -/
theorem compared_shown : ∀ c : Condition, c.isEmpty = false → Complete c.fragments →
    Compared c.keepsGroups (Clauses.formula c.shown) c.formula
  | .all members, hlive, hf => by
    rw [isEmpty] at hlive
    have hmembers := comparedMembers (contentCount members == 1) members hf
    have hall :=
      Clauses.compared_all (shownMembers_ne_nil _ hlive) (proper_shownMembers _ hf) hmembers
    have hkeeps : ((shownMembers (contentCount members == 1) members).length == 1 ||
        (shownMembers (contentCount members == 1) members).all fun cs => cs.length == 1) =
          (contentCount members == 1 || !anyShowsOr false members) := by
      rw [length_shownMembers]
      cases hone : contentCount members == 1 with
      | true => rfl
      | false =>
        have hiff := anyShowsOr_iff false members hf
        rw [Bool.false_or, Bool.false_or, Bool.eq_iff_iff, List.all_eq_true, Bool.not_eq_true',
          hiff]
        simp
    rw [hkeeps] at hall
    rw [keepsGroups, shown, formula]
    exact hall
  | .any members, hlive, hf => by
    rw [isEmpty] at hlive
    have hmembers := comparedMembers (contentCount members == 1) members hf
    rw [keepsGroups, shown, formula]
    exact Clauses.compared_any (shownMembers_ne_nil _ hlive) (proper_shownMembers _ hf) hmembers
  | .not inner, hlive, hf => by
    rw [isEmpty] at hlive
    have ih := compared_shown inner hlive hf
    rw [keepsGroups, shown, formula]
    exact Clauses.compared_singleton ih.not
  | .fragment sql bindings, _, hf =>
    Compared.refl (Clauses.proper_formula (proper_shown rfl hf))
  | .compare .., _, _ => Clauses.compared_singleton (Compared.refl (.predicate _))
  | .null .., _, _ => Clauses.compared_singleton (Compared.refl (.predicate _))
  | .memberOf .., _, _ => Clauses.compared_singleton (Compared.refl (.predicate _))
  | .between .., _, _ => Clauses.compared_singleton (Compared.refl (.predicate _))
  | .always, _, _ => Clauses.compared_singleton (Compared.refl (.predicate _))
  | .never, _, _ => Clauses.compared_singleton (Compared.refl (.predicate _))

theorem comparedMembers : ∀ (alone : Bool) (members : List Condition),
    Complete (memberFragments members) →
      ComparedAll (membersKeepGroups members) ((shownMembers alone members).map Clauses.formula)
        (memberFormulas members)
  | _, [], _ => .nil
  | alone, member :: members, hf => by
    have ih := comparedMembers alone members fun s hs => hf s (List.mem_append_right _ hs)
    rw [membersKeepGroups, shownMembers, memberFormulas]
    by_cases hempty : member.isEmpty = true
    · rw [if_pos hempty, if_pos hempty, hempty]
      exact ih
    · have hlive : member.isEmpty = false := Bool.eq_false_iff.mpr hempty
      have hmember := compared_shown member hlive fun s hs => hf s (List.mem_append_left _ hs)
      rw [if_neg hempty, if_neg hempty, hlive, Bool.false_or]
      split_ifs
      · exact .cons (Clauses.compared_singleton hmember) ih
      · exact .cons hmember ih

end

/-! ### Rows -/

/-- Truth values for the predicates of a fragment. -/
def fragmentTruths (tests : String → List Value → Nat → Truth) (s : Statement) : List Truth :=
  (List.range (fragmentFormula s.sql).leaves.length).map (tests s.sql s.bindings)

/-- The predicates of a fragment come, all together, to what the fragment comes to on a row. -/
def Explained (row : Row) (tests : String → List Value → Nat → Truth) (s : Statement) : Prop :=
  (fragmentFormula s.sql).value (fragmentTruths tests s) = row.fragment s.sql s.bindings

mutual

/-- What the tests of a condition come to on a row, in text order. -/
def truths (row : Row) (tests : String → List Value → Nat → Truth) : Condition → List Truth
  | .all members => memberTruths row tests members
  | .any members => memberTruths row tests members
  | .not inner => inner.truths row tests
  | .fragment sql bindings => fragmentTruths tests ⟨sql, bindings⟩
  | test => [test.value row]

/-- What the tests of the members with content come to. -/
def memberTruths (row : Row) (tests : String → List Value → Nat → Truth) :
    List Condition → List Truth
  | [] => []
  | member :: members =>
    if member.isEmpty then memberTruths row tests members
    else member.truths row tests ++ memberTruths row tests members

end

section Row
variable (row : Row) (tests : String → List Value → Nat → Truth)

mutual

theorem length_truths : ∀ c : Condition, (c.truths row tests).length = c.formula.leaves.length
  | .all members => by rw [truths, formula, Formula.leaves, length_memberTruths members]
  | .any members => by rw [truths, formula, Formula.leaves, length_memberTruths members]
  | .not inner => by rw [truths, formula, Formula.leaves, List.length_map, length_truths inner]
  | .fragment sql bindings => by simp [truths, fragmentTruths, formula]
  | .compare .. | .null .. | .memberOf .. | .between .. | .always | .never => rfl

theorem length_memberTruths : ∀ members : List Condition,
    (memberTruths row tests members).length =
      (Formula.leavesList (memberFormulas members)).length
  | [] => rfl
  | member :: members => by
    rw [memberTruths, memberFormulas]
    split_ifs
    · exact length_memberTruths members
    · rw [Formula.leavesList, List.length_append, List.length_append, length_truths member,
        length_memberTruths members]

end

mutual

/-- The formula of a condition has the value of the condition on every row. -/
theorem value_formula : ∀ c : Condition, (∀ s ∈ c.fragments, Explained row tests s) →
    c.formula.value (c.truths row tests) = c.value row
  | .all members, h => by
    rw [formula, truths, value, Formula.value, values_memberFormulas members h]
  | .any members, h => by
    rw [formula, truths, value, Formula.value, values_memberFormulas members h]
  | .not inner, h => by rw [formula, truths, value, Formula.value, value_formula inner h]
  | .fragment sql bindings, h => h ⟨sql, bindings⟩ List.mem_cons_self
  | .compare .., _ | .null .., _ | .memberOf .., _ | .between .., _ | .always, _ | .never, _ => rfl

theorem values_memberFormulas : ∀ members : List Condition,
    (∀ s ∈ memberFragments members, Explained row tests s) →
      Formula.values (memberFormulas members) (memberTruths row tests members) =
        memberValues row members
  | [], _ => rfl
  | member :: members, h => by
    have hmember := value_formula member fun s hs => h s (List.mem_append_left _ hs)
    have ih := values_memberFormulas members fun s hs => h s (List.mem_append_right _ hs)
    have hlength := length_truths row tests member
    rw [memberFormulas, memberTruths, memberValues]
    split_ifs
    · exact ih
    · rw [Formula.values, Formula.value_append _ _ (by omega), hmember, ← hlength, List.drop_left,
        ih]

end

end Row

/-- **The text of a condition and its tree.** The text can be read, as the same tests in the same
order, and it agrees with the tree for all truth values of the tests exactly when the condition
keeps its groups; then it has the value of the condition on every row. The text of a conjunction
is that of the group of its members. -/
theorem formula?_render (c : Condition) (hlive : c.isEmpty = false) (hf : Complete c.fragments) :
    ∃ f : Formula, formula? (Sql.text c.render) = some f ∧
      (∀ g : Conjunction, c = .all g.members → formula? (Sql.text g.render) = some f) ∧
      f.leaves = c.formula.leaves ∧
      ((∀ ts, f.value ts = c.formula.value ts) ↔ c.keepsGroups = true) ∧
      (c.keepsGroups = true → ∀ row tests, (∀ s ∈ c.fragments, Explained row tests s) →
        f.value (c.truths row tests) = c.value row) := by
  have hread := read?_render c hlive hf
  have hcompared := compared_shown c hlive hf
  have hformula : formula? (Sql.text c.render) = some (Clauses.formula c.shown) := by
    rw [formula?, hread, Option.map_some]
  refine ⟨_, hformula, ?_, hcompared.leaves, hcompared.agree_iff, ?_⟩
  · rintro g rfl
    exact hformula
  · intro hkeeps row tests hexplained
    rw [hcompared.same hkeeps, value_formula row tests c hexplained]

/-- A group of one fragment with an OR beside other tests of a disjunction, a negated range, and
empty groups where they do not count. -/
def mixedGroups : Condition :=
  .all [.any [.all [], .all [.fragment "x = '(' OR y -- )\n" [], .any []], .never],
    .not (.any [.between Sql.nestedName .null (.bool true) true]),
    .fragment "z = 1 OR z IS NULL" [],
    .memberOf Sql.countName [.null, .bool false] true]

theorem formula?_render_mixedGroups :
    mixedGroups.isEmpty = false ∧ Complete mixedGroups.fragments ∧ mixedGroups.keepsGroups = true ∧
      ∃ f : Formula, formula? (Sql.text mixedGroups.render) = some f ∧
        ∀ ts, f.value ts = mixedGroups.formula.value ts := by
  have hlive : mixedGroups.isEmpty = false := by decide +kernel
  have hcomplete : ∀ s ∈ mixedGroups.fragments, (read? s.sql).isSome = true := by decide +kernel
  have hkeeps : mixedGroups.keepsGroups = true := by decide +kernel
  obtain ⟨f, hf, _, _, hiff, _⟩ := formula?_render mixedGroups hlive hcomplete
  exact ⟨hlive, hcomplete, hkeeps, f, hf, hiff.mpr hkeeps⟩

/-- A row on which the column `a` has every value and all other columns have none. -/
def firstColumnRow : Row where
  compares name _ _ := if name.parts = ["a"] then .yes else .no
  missing _ := false
  fragment _ _ := .unknown

/-- A group in a group of one member, beside a test. -/
def leakingFilter : Filter :=
  .all [.any [.any [.equals "a" (.bool true), .equals "b" (.bool true)]], .equals "c" (.bool true)]

/-- The test of `c` is passed over for the rows that pass the test of `a`. -/
theorem value_leakingFilter :
    ∃ (c : Condition) (f : Formula), leakingFilter.compile.result = .ok (some c) ∧
      c.isEmpty = false ∧ c.fragments = [] ∧
      Sql.text c.render = "\"a\" = ? OR \"b\" = ? AND \"c\" = ?" ∧
      formula? (Sql.text c.render) = some f ∧ f.leaves = c.formula.leaves ∧
      c.value firstColumnRow = .no ∧
      f.value (c.truths firstColumnRow fun _ _ _ => .unknown) = .yes := by
  have hcompile : leakingFilter.compile.gives
      (fun o => o.any fun c => decide (c.isEmpty = false ∧ c.fragments = [] ∧
        Sql.text c.render = "\"a\" = ? OR \"b\" = ? AND \"c\" = ?" ∧
        c.value firstColumnRow = .no ∧
        (Clauses.formula c.shown).value (c.truths firstColumnRow fun _ _ _ => .unknown) = .yes)) =
      true := by decide +kernel
  obtain ⟨o, ho, hany⟩ := Filter.Outcome.exists_of_gives hcompile
  obtain ⟨c, rfl, hc⟩ := (Option.any_eq_true _ o).mp hany
  obtain ⟨hlive, hfragments, htext, hvalue, hshown⟩ := of_decide_eq_true hc
  have hcomplete : Complete c.fragments := by
    rw [hfragments]
    exact fun s hs => absurd hs List.not_mem_nil
  refine ⟨c, Clauses.formula c.shown, ho, hlive, hfragments, htext, ?_, ?_, hvalue, hshown⟩
  · rw [formula?, read?_render c hlive hcomplete, Option.map_some]
  · exact (compared_shown c hlive hcomplete).leaves

end Condition

end Rowset
