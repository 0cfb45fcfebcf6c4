import Rowset.Proofs.Reading.Formula

/-!
# Reading a predicate: clauses

At its top level a text is a disjunction of clauses, and a clause is a conjunction. Two texts with
an OR between them have the clauses of both. An AND between them takes the last clause of the one
together with the first of the other (`meld`): that is the conjunction of the two texts only if
neither of them has a second clause.

`compared_any` and `compared_all` say when joined texts agree with a disjunction and with a
conjunction of what the texts are read as. For a disjunction this is always so. For a conjunction of
two texts or more it is so exactly when none of them has a second clause: otherwise the first clause
of the first text or the last one of the last text settles the disjunction on its own.
-/

namespace Rowset.Reading

/-- The conjunctions that stand between ORs. -/
abbrev Clauses := List (List Formula)

namespace Clauses

open Formula (Compared ComparedAll Differ favor leavesList values)

/-- The formula that clauses make. -/
def formula (as : Clauses) : Formula :=
  .any (as.map .all)

/-- Clauses of which none is empty. -/
def Proper (as : Clauses) : Prop :=
  as ≠ [] ∧ ∀ a ∈ as, (Formula.all a).Proper

/-- The clauses of two texts with an AND between them. -/
def meld : Clauses → Clauses → Clauses
  | [], bs => bs
  | [a], [] => [a]
  | [a], b :: bs => (a ++ b) :: bs
  | a :: a' :: as, bs => a :: meld (a' :: as) bs

/-- The clauses of texts with ANDs between them. -/
def melded (parts : List Clauses) : Clauses :=
  parts.foldr meld [[]]

theorem proper_formula {as : Clauses} (h : Proper as) : (formula as).Proper := by
  refine .any (mt List.map_eq_nil_iff.mp h.1) ?_
  intro f hf
  obtain ⟨a, ha, rfl⟩ := List.mem_map.mp hf
  exact h.2 a ha

theorem proper_singleton {f : Formula} (hf : f.Proper) : Proper [[f]] := by
  refine ⟨List.cons_ne_nil _ _, fun a ha => ?_⟩
  rw [List.mem_singleton] at ha
  rw [ha]
  refine .all (List.cons_ne_nil _ _) fun g hg => ?_
  rw [List.mem_singleton] at hg
  rw [hg]
  exact hf

theorem leaves_formula (as : Clauses) : (formula as).leaves = leavesList as.flatten := by
  show leavesList (as.map .all) = _
  induction as with
  | nil => rfl
  | cons a as ih =>
    rw [List.map_cons, leavesList, ih, List.flatten_cons, Formula.leavesList_append]
    rfl

/-! ### Melding -/

theorem meld_cons (a : List Formula) {as : Clauses} (has : as ≠ []) (bs : Clauses) :
    meld (a :: as) bs = a :: meld as bs := by
  obtain ⟨a', as, rfl⟩ := List.exists_cons_of_ne_nil has
  rfl

theorem meld_unit : ∀ {as : Clauses}, as ≠ [] → meld as [[]] = as
  | [a], _ => by rw [meld, List.append_nil]
  | a :: a' :: as, _ => by rw [meld, meld_unit (List.cons_ne_nil a' as)]

theorem flatten_meld : ∀ as bs : Clauses, (meld as bs).flatten = as.flatten ++ bs.flatten
  | [], bs => rfl
  | [a], [] => by simp [meld]
  | [a], b :: bs => by simp [meld]
  | a :: a' :: as, bs => by
    have ih := flatten_meld (a' :: as) bs
    simp only [meld, List.flatten_cons, List.append_assoc] at ih ⊢
    rw [ih]

theorem meld_ne_nil : ∀ {as : Clauses} (bs : Clauses), as ≠ [] → meld as bs ≠ []
  | [a], [], _ => by simp [meld]
  | [a], b :: bs, _ => by simp [meld]
  | a :: a' :: as, bs, _ => by simp [meld]

theorem length_meld : ∀ {as bs : Clauses}, as ≠ [] → bs ≠ [] →
    (meld as bs).length + 1 = as.length + bs.length
  | [a], b :: bs, _, _ => by
    simp only [meld, List.length_cons, List.length_nil]
    omega
  | a :: a' :: as, bs, _, hbs => by
    have ih := length_meld (List.cons_ne_nil a' as) hbs
    rw [meld]
    simp only [List.length_cons] at ih ⊢
    omega

theorem meld_append : ∀ (as : Clauses) {bs : Clauses} (cs : Clauses), bs ≠ [] →
    meld as (bs ++ cs) = meld as bs ++ cs
  | [], bs, cs, _ => rfl
  | [a], b :: bs, cs, _ => rfl
  | a :: a' :: as, bs, cs, hbs => by
    rw [meld, meld_append (a' :: as) cs hbs, meld, List.cons_append]

theorem meld_assoc (a : List Formula) : ∀ {bs cs : Clauses}, bs ≠ [] → cs ≠ [] →
    meld (meld [a] bs) cs = meld [a] (meld bs cs)
  | [b], c :: cs, _, _ => by simp [meld]
  | b :: b' :: bs, cs, _, _ => rfl

theorem proper_meld : ∀ {as bs : Clauses}, Proper as → Proper bs → Proper (meld as bs)
  | [], _, ha, _ => absurd rfl ha.1
  | [a], [], _, hb => absurd rfl hb.1
  | [a], b :: bs, ha, hb => by
    refine ⟨meld_ne_nil _ ha.1, ?_⟩
    intro c hc
    rcases List.mem_cons.mp hc with rfl | hc
    · cases ha.2 a List.mem_cons_self with
      | all hane hafs =>
        cases hb.2 b List.mem_cons_self with
        | all hbne hbfs =>
          refine .all (List.append_ne_nil_of_left_ne_nil hane b) ?_
          intro f hf
          rcases List.mem_append.mp hf with hf | hf
          · exact hafs f hf
          · exact hbfs f hf
    · exact hb.2 c (List.mem_cons_of_mem b hc)
  | a :: a' :: as, bs, ha, hb => by
    have ih := proper_meld
      ⟨List.cons_ne_nil a' as, fun c hc => ha.2 c (List.mem_cons_of_mem a hc)⟩ hb
    refine ⟨meld_ne_nil _ ha.1, ?_⟩
    intro c hc
    rcases List.mem_cons.mp hc with rfl | hc
    · exact ha.2 c List.mem_cons_self
    · exact ih.2 c hc

theorem melded_ne_nil {parts : List Clauses} (h : ∀ as ∈ parts, Proper as) : melded parts ≠ [] := by
  cases parts with
  | nil => exact List.cons_ne_nil _ _
  | cons as parts => exact meld_ne_nil _ (h as List.mem_cons_self).1

theorem proper_melded : ∀ {parts : List Clauses}, parts ≠ [] → (∀ as ∈ parts, Proper as) →
    Proper (melded parts)
  | [as], _, h => by
    have has := h as List.mem_cons_self
    show Proper (meld as [[]])
    rw [meld_unit has.1]
    exact has
  | as :: bs :: parts, _, h =>
    proper_meld (h as List.mem_cons_self) (proper_melded (List.cons_ne_nil bs parts)
      fun cs hcs => h cs (List.mem_cons_of_mem as hcs))

theorem flatten_melded (parts : List Clauses) :
    (melded parts).flatten = parts.flatten.flatten := by
  induction parts with
  | nil => rfl
  | cons as parts ih =>
    show (meld as (melded parts)).flatten = _
    rw [flatten_meld, ih, List.flatten_cons, List.flatten_append]

/-- A melding has a single clause exactly when all its parts have. -/
theorem length_melded_eq_one {parts : List Clauses} (h : ∀ as ∈ parts, Proper as) :
    (melded parts).length = 1 ↔ ∀ as ∈ parts, as.length = 1 := by
  induction parts with
  | nil => simp [melded]
  | cons as parts ih =>
    have hparts : ∀ bs ∈ parts, Proper bs := fun bs hbs => h bs (List.mem_cons_of_mem as hbs)
    have has := h as List.mem_cons_self
    have hlength := length_meld has.1 (melded_ne_nil hparts)
    have hpos : 0 < as.length := List.length_pos_iff.mpr has.1
    have hpos' : 0 < (melded parts).length := List.length_pos_iff.mpr (melded_ne_nil hparts)
    rw [List.forall_mem_cons, ← ih hparts]
    show (meld as (melded parts)).length = 1 ↔ _
    omega

/-! ### Joined texts and groups -/

theorem leavesList_map_formula (parts : List Clauses) :
    leavesList (parts.map formula) = leavesList parts.flatten.flatten := by
  induction parts with
  | nil => rfl
  | cons as parts ih =>
    rw [List.map_cons, leavesList, ih, leaves_formula, List.flatten_cons, List.flatten_append,
      Formula.leavesList_append]

theorem value_formula_flatten (parts : List Clauses) (ts : List Truth) :
    (formula parts.flatten).value ts = (Formula.any (parts.map formula)).value ts := by
  show Truth.any (values (parts.flatten.map .all) ts) = Truth.any (values (parts.map formula) ts)
  induction parts generalizing ts with
  | nil => rfl
  | cons as parts ih =>
    rw [List.flatten_cons, List.map_append, Formula.values_append, Truth.any_append, ih,
      List.map_cons, values, Truth.any_cons]
    rfl

/-- **Texts joined by OR** agree with a disjunction where they agree with its members. -/
theorem compared_any {agree : Bool} {parts : List Clauses} {gs : List Formula} (hne : parts ≠ [])
    (hproper : ∀ as ∈ parts, Proper as) (h : ComparedAll agree (parts.map formula) gs) :
    Compared agree (formula parts.flatten) (.any gs) := by
  refine (h.any (mt List.map_eq_nil_iff.mp hne)).congr ?_ ?_ (value_formula_flatten parts)
  · rw [leaves_formula]
    exact (leavesList_map_formula parts).symm
  · refine proper_formula ⟨?_, ?_⟩
    · obtain ⟨as, parts, rfl⟩ := List.exists_cons_of_ne_nil hne
      exact List.append_ne_nil_of_left_ne_nil (hproper as List.mem_cons_self).1 _
    · intro a ha
      obtain ⟨as, has, ha⟩ := List.mem_flatten.mp ha
      exact (hproper as has).2 a ha

theorem value_formula_singleton (a : List Formula) (ts : List Truth) :
    (formula [a]).value ts = Truth.all (values a ts) := by
  show Truth.any [Truth.all (values a ts)] = _
  rw [Truth.any_cons, Truth.any_nil, Truth.or_no]

/-- A text that is a single formula agrees with what the formula agrees with. -/
theorem compared_singleton {agree : Bool} {f g : Formula} (h : Compared agree f g) :
    Compared agree (formula [[f]]) g := by
  refine h.congr ?_ (proper_formula (proper_singleton h.left)) fun ts => ?_
  · rw [leaves_formula]
    exact List.append_nil _
  · rw [value_formula_singleton]
    exact Truth.and_yes _

/-- Single clauses joined by AND are a conjunction. -/
theorem value_formula_melded {parts : List Clauses} (h : ∀ as ∈ parts, Proper as)
    (hone : ∀ as ∈ parts, as.length = 1) (ts : List Truth) :
    (formula (melded parts)).value ts = (Formula.all (parts.map formula)).value ts := by
  show _ = Truth.all (values (parts.map formula) ts)
  induction parts generalizing ts with
  | nil => rfl
  | cons as parts ih =>
    have hparts : ∀ bs ∈ parts, Proper bs := fun bs hbs => h bs (List.mem_cons_of_mem as hbs)
    have hrest : ∀ bs ∈ parts, bs.length = 1 := fun bs hbs => hone bs (List.mem_cons_of_mem as hbs)
    obtain ⟨a, rfl⟩ := List.length_eq_one_iff.mp (hone as List.mem_cons_self)
    obtain ⟨b, hb⟩ := List.length_eq_one_iff.mp ((length_melded_eq_one hparts).mpr hrest)
    have hmeld : melded ([a] :: parts) = [a ++ b] := by
      show meld [a] (melded parts) = _
      rw [hb]
      rfl
    have hlength : (formula [a]).leaves.length = (leavesList a).length := by
      rw [leaves_formula, List.flatten_cons, List.flatten_nil, List.append_nil]
    rw [hmeld, value_formula_singleton, Formula.values_append, Truth.all_append, List.map_cons,
      values, Truth.all_cons, value_formula_singleton, ← ih hparts hrest, hb,
      value_formula_singleton, hlength]

theorem leaves_formula_meld (as bs : Clauses) :
    (formula (meld as bs)).leaves = (formula as).leaves ++ (formula bs).leaves := by
  rw [leaves_formula, flatten_meld, Formula.leavesList_append, leaves_formula, leaves_formula]

section Leak
variable {as bs : Clauses} {g : Formula} {gs : List Formula} (hg : g.Proper)
  (hgs : ∀ f ∈ gs, f.Proper) (hgleaves : g.leaves = (formula as).leaves)
  (hgsleaves : leavesList gs = (formula bs).leaves)
include hg hgs hgleaves hgsleaves

/-- A conjunction whose first member favors one value and whose others favor another. -/
theorem value_all_favor (hne : gs ≠ []) (x y : Truth) (us : List Truth) :
    (Formula.all (g :: gs)).value
        (favor x (formula as).leaves ++ (favor y (formula bs).leaves ++ us)) = x.and y := by
  have hhead := Formula.value_favor hg x (favor y (formula bs).leaves ++ us)
  have htail := Formula.values_favor us fun f hf us => Formula.value_favor (hgs f hf) y us
  rw [hgleaves] at hhead
  rw [hgsleaves] at htail
  show Truth.all (values (g :: gs) _) = _
  rw [values, hhead, hgleaves, Formula.drop_favor_append, htail, Truth.all_cons,
    Truth.all_replicate (mt List.length_eq_zero_iff.mp hne)]

/-- A second clause in the first text: its first clause is enough for the disjunction. -/
theorem differ_of_leak_left (has : Proper as) (hne : gs ≠ []) (hleak : 1 < as.length) :
    Differ (formula (meld as bs)) (.all (g :: gs)) := by
  obtain ⟨a, as, rfl⟩ := List.exists_cons_of_ne_nil has.1
  have htail : as ≠ [] := by
    intro hnil
    rw [hnil, List.length_singleton] at hleak
    omega
  refine ⟨favor .yes (formula (a :: as)).leaves ++ favor .no (formula bs).leaves, ?_, fun us => ?_⟩
  · rw [List.length_append, Formula.length_favor, Formula.length_favor, leaves_formula_meld,
      List.length_append]
  · have hfirst : (Formula.all a).value (favor .yes (formula (a :: as)).leaves ++
        (favor .no (formula bs).leaves ++ us)) = .yes := by
      rw [leaves_formula, List.flatten_cons, Formula.leavesList_append, Formula.favor_append,
        List.append_assoc]
      exact Formula.value_favor (has.2 a List.mem_cons_self) .yes _
    have hshown : (formula (meld (a :: as) bs)).value (favor .yes (formula (a :: as)).leaves ++
        (favor .no (formula bs).leaves ++ us)) = .yes := by
      rw [meld_cons a htail]
      show Truth.any (values (.all a :: (meld as bs).map .all) _) = _
      rw [values, hfirst, Truth.any_cons, Truth.yes_or]
    rw [List.append_assoc, hshown, value_all_favor hg hgs hgleaves hgsleaves hne]
    decide

/-- A second clause behind the first text: the last clause is enough for the disjunction. -/
theorem differ_of_leak_right (hbs : Proper bs) (hne : gs ≠ []) (hleak : 1 < bs.length) :
    Differ (formula (meld as bs)) (.all (g :: gs)) := by
  obtain ⟨bs, b, rfl⟩ : ∃ init last, bs = init ++ [last] :=
    ⟨_, _, (List.dropLast_concat_getLast hbs.1).symm⟩
  have hinit : bs ≠ [] := by
    intro hnil
    rw [hnil, List.nil_append, List.length_singleton] at hleak
    omega
  refine ⟨favor .no (formula as).leaves ++ favor .yes (formula (bs ++ [b])).leaves, ?_,
    fun us => ?_⟩
  · rw [List.length_append, Formula.length_favor, Formula.length_favor, leaves_formula_meld,
      List.length_append]
  · have hlast : (Formula.all b).value (favor .yes (leavesList b) ++ us) = .yes :=
      Formula.value_favor (hbs.2 b (List.mem_append_right bs List.mem_cons_self)) .yes us
    have hsplit : (formula (bs ++ [b])).leaves = (formula bs).leaves ++ leavesList b := by
      rw [leaves_formula, List.flatten_append, Formula.leavesList_append, leaves_formula,
        List.flatten_cons, List.flatten_nil, List.append_nil]
    have hshown : (formula (meld as (bs ++ [b]))).value (favor .no (formula as).leaves ++
        (favor .yes (formula (bs ++ [b])).leaves ++ us)) = .yes := by
      rw [meld_append as [b] hinit]
      show Truth.any (values ((meld as bs ++ [b]).map .all) _) = _
      rw [List.map_append, Formula.values_append, Truth.any_append]
      have hinner : leavesList ((meld as bs).map .all) =
          (formula as).leaves ++ (formula bs).leaves := leaves_formula_meld as bs
      rw [hinner, List.length_append, ← List.drop_drop, Formula.drop_favor_append, hsplit,
        Formula.favor_append, List.append_assoc, Formula.drop_favor_append]
      show Truth.or _ (Truth.any [(Formula.all b).value _]) = _
      rw [hlast, Truth.any_cons, Truth.yes_or, Truth.or_yes]
    rw [List.append_assoc, hshown, value_all_favor hg hgs hgleaves hgsleaves hne]
    decide

end Leak

/-- **Texts joined by AND** agree with a conjunction where they agree with its members and, unless
one text stands alone, none of them has a second clause. -/
theorem compared_all {agree : Bool} {parts : List Clauses} {gs : List Formula} (hne : parts ≠ [])
    (hproper : ∀ as ∈ parts, Proper as) (h : ComparedAll agree (parts.map formula) gs) :
    Compared (agree && (parts.length == 1 || parts.all fun as => as.length == 1))
      (formula (melded parts)) (.all gs) := by
  have hall := h.all (mt List.map_eq_nil_iff.mp hne)
  have hformula := proper_formula (proper_melded hne hproper)
  have hleaves : (formula (melded parts)).leaves = (Formula.all (parts.map formula)).leaves := by
    rw [leaves_formula, flatten_melded]
    exact (leavesList_map_formula parts).symm
  by_cases hone : ∀ as ∈ parts, as.length = 1
  · have hkeeps : (parts.length == 1 || parts.all fun as => as.length == 1) = true := by
      rw [Bool.or_eq_true, List.all_eq_true]
      exact Or.inr fun as has => beq_iff_eq.mpr (hone as has)
    rw [hkeeps, Bool.and_true]
    exact hall.congr hleaves hformula (value_formula_melded hproper hone)
  · obtain ⟨as, parts, rfl⟩ := List.exists_cons_of_ne_nil hne
    have has := hproper as List.mem_cons_self
    have hparts : ∀ bs ∈ parts, Proper bs := fun bs hbs => hproper bs (List.mem_cons_of_mem as hbs)
    by_cases halone : parts = []
    · subst halone
      have hmelded : melded [as] = as := meld_unit has.1
      rw [hmelded] at hleaves hformula ⊢
      rw [List.length_singleton, beq_self_eq_true, Bool.true_or, Bool.and_true]
      refine hall.congr hleaves hformula fun ts => ?_
      show _ = Truth.all [(formula as).value ts]
      rw [Truth.all_cons, Truth.all_nil, Truth.and_yes]
    · have hkeeps : ((as :: parts).length == 1 || (as :: parts).all fun as => as.length == 1) =
          false := by
        have hlength : 0 < parts.length := List.length_pos_iff.mpr halone
        rw [Bool.or_eq_false_iff, beq_eq_false_iff_ne, List.length_cons, Bool.eq_false_iff]
        refine ⟨by omega, fun heach => hone fun bs hbs => ?_⟩
        exact beq_iff_eq.mp (List.all_eq_true.mp heach bs hbs)
      rw [hkeeps, Bool.and_false]
      have hmelded : Proper (melded parts) := proper_melded halone hparts
      refine ⟨hleaves.trans hall.leaves, hformula, hall.right, Bool.noConfusion, fun _ => ?_⟩
      cases h with
      | @cons agree rest _ g _ gs hf hfs =>
        have hgs : gs ≠ [] := hfs.ne_nil (mt List.map_eq_nil_iff.mp halone)
        have hgsleaves : leavesList gs = (formula (melded parts)).leaves := by
          rw [← hfs.leaves, leavesList_map_formula, leaves_formula, flatten_melded]
        -- The clause too many is in the first text, or in what the others come to together.
        by_cases hleak : 1 < as.length
        · exact differ_of_leak_left hf.right hfs.right hf.leaves.symm hgsleaves has hgs hleak
        · have hpos : 0 < as.length := List.length_pos_iff.mpr has.1
          have hpos' : 0 < (melded parts).length := List.length_pos_iff.mpr hmelded.1
          have hmany : (melded parts).length ≠ 1 := fun hl => hone (List.forall_mem_cons.mpr
            ⟨by omega, (length_melded_eq_one hparts).mp hl⟩)
          have hlong : 1 < (melded parts).length := by omega
          exact differ_of_leak_right hf.right hfs.right hf.leaves.symm hgsleaves hmelded hgs
            hlong

end Clauses

end Rowset.Reading
