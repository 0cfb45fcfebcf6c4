import Rowset.Proofs.Reading.Tree
import Rowset.Proofs.Truth

/-!
# Reading a predicate: formulas

What a text is read as: predicates, of which only the words are known, under negations, conjunctions
and disjunctions. A formula has a value for any truth values of its predicates, taken in text order
and each on its own, so two formulas over the same predicates that always agree do so on every row.

Two formulas are compared in both directions (`Compared`): either they agree on all truth values or
some truth values tell them apart. That a difference below shows above rests on `value_favor`: a
formula takes any value that is asked for when each of its predicates favors it, and then it is
neutral for what stands beside it.
-/

namespace Rowset.Reading

/-- How the predicates of a text are connected. -/
inductive Formula where
  | predicate (words : List Tree)
  | not (f : Formula)
  | all (fs : List Formula)
  | any (fs : List Formula)

namespace Formula

/-- A predicate with whether the negations above it are odd in number. -/
abbrev Leaf := Bool × List Tree

mutual

/-- The predicates of a formula in text order. -/
def leaves : Formula → List Leaf
  | .predicate words => [(false, words)]
  | .not f => f.leaves.map fun (negated, words) => (!negated, words)
  | .all fs => leavesList fs
  | .any fs => leavesList fs

/-- The predicates of some formulas in text order. -/
def leavesList : List Formula → List Leaf
  | [] => []
  | f :: fs => f.leaves ++ leavesList fs

end

mutual

/-- **The value of a formula** for truth values of its predicates in text order. -/
def value : Formula → List Truth → Truth
  | .predicate _, ts => ts.headD .unknown
  | .not f, ts => (f.value ts).not
  | .all fs, ts => .all (values fs ts)
  | .any fs, ts => .any (values fs ts)

/-- The values of formulas that stand one after the other. -/
def values : List Formula → List Truth → List Truth
  | [], _ => []
  | f :: fs, ts => f.value ts :: values fs (ts.drop f.leaves.length)

end

theorem leavesList_append (fs gs : List Formula) :
    leavesList (fs ++ gs) = leavesList fs ++ leavesList gs := by
  induction fs with
  | nil => rfl
  | cons f fs ih => rw [List.cons_append, leavesList, ih, leavesList, List.append_assoc]

theorem values_append (fs gs : List Formula) (ts : List Truth) :
    values (fs ++ gs) ts = values fs ts ++ values gs (ts.drop (leavesList fs).length) := by
  induction fs generalizing ts with
  | nil => rfl
  | cons f fs ih =>
    rw [List.cons_append, values, ih, values, leavesList, List.length_append, List.drop_drop,
      List.cons_append]

mutual

/-- A formula takes no more truth values than it has predicates. -/
theorem value_append : ∀ (f : Formula) {ts : List Truth} (us : List Truth),
    f.leaves.length ≤ ts.length → f.value (ts ++ us) = f.value ts
  | .predicate _, [], _, h => absurd h (Nat.not_succ_le_zero 0)
  | .predicate _, _ :: _, _, _ => rfl
  | .not f, ts, us, h => by
    rw [leaves, List.length_map] at h
    rw [value, value, value_append f us h]
  | .all fs, ts, us, h => by rw [value, value, values_append_left fs us h]
  | .any fs, ts, us, h => by rw [value, value, values_append_left fs us h]

theorem values_append_left : ∀ (fs : List Formula) {ts : List Truth} (us : List Truth),
    (leavesList fs).length ≤ ts.length → values fs (ts ++ us) = values fs ts
  | [], _, _, _ => rfl
  | f :: fs, ts, us, h => by
    rw [leavesList, List.length_append] at h
    have hdrop : (leavesList fs).length ≤ (ts.drop f.leaves.length).length := by
      rw [List.length_drop]
      omega
    rw [values, values, value_append f us (by omega), List.drop_append_of_le_length (by omega),
      values_append_left fs us hdrop]

end

/-- A formula in which no group is without members. -/
inductive Proper : Formula → Prop where
  | predicate (words : List Tree) : Proper (.predicate words)
  | not {f : Formula} : Proper f → Proper (.not f)
  | all {fs : List Formula} : fs ≠ [] → (∀ f ∈ fs, Proper f) → Proper (.all fs)
  | any {fs : List Formula} : fs ≠ [] → (∀ f ∈ fs, Proper f) → Proper (.any fs)

/-! ### Favoring a value -/

/-- Truth values for predicates that all favor a value of the formula they stand in. -/
def favor (b : Truth) (ls : List Leaf) : List Truth :=
  ls.map fun l => .negatedIf l.1 b

theorem length_favor (b : Truth) (ls : List Leaf) : (favor b ls).length = ls.length :=
  List.length_map _

theorem favor_append (b : Truth) (ls ms : List Leaf) :
    favor b (ls ++ ms) = favor b ls ++ favor b ms :=
  List.map_append

theorem drop_favor_append (b : Truth) (ls : List Leaf) (us : List Truth) :
    (favor b ls ++ us).drop ls.length = us := by
  have h := @List.drop_left _ (favor b ls) us
  rwa [length_favor] at h

theorem favor_leaves_not (b : Truth) (f : Formula) :
    favor b (Formula.not f).leaves = favor b.not f.leaves := by
  simp only [favor, leaves, List.map_map]
  refine List.map_congr_left ?_
  rintro ⟨negated, words⟩ _
  cases negated <;> simp

theorem values_favor {fs : List Formula} {b : Truth} (us : List Truth)
    (h : ∀ f ∈ fs, ∀ us, f.value (favor b f.leaves ++ us) = b) :
    values fs (favor b (leavesList fs) ++ us) = List.replicate fs.length b := by
  induction fs with
  | nil => rfl
  | cons f fs ih =>
    have hf := h f List.mem_cons_self
    have hfs := ih fun g hg => h g (List.mem_cons_of_mem f hg)
    rw [leavesList, favor_append, List.append_assoc, values, hf, drop_favor_append, hfs]
    rfl

/-- **A formula takes the value that its predicates favor.** -/
theorem value_favor {f : Formula} (hf : f.Proper) (b : Truth) (us : List Truth) :
    f.value (favor b f.leaves ++ us) = b := by
  induction hf generalizing b us with
  | predicate words => rfl
  | not hf ih => rw [favor_leaves_not, value, ih, Truth.not_not]
  | all hne hfs ih =>
    rw [leaves, value, values_favor us fun g hg us => ih g hg b us]
    exact Truth.all_replicate (mt List.length_eq_zero_iff.mp hne) b
  | any hne hfs ih =>
    rw [leaves, value, values_favor us fun g hg us => ih g hg b us]
    exact Truth.any_replicate (mt List.length_eq_zero_iff.mp hne) b

/-! ### Comparing formulas -/

/-- Some truth values tell two formulas apart, whatever follows them. -/
def Differ (f g : Formula) : Prop :=
  ∃ ts : List Truth, ts.length = f.leaves.length ∧ ∀ us, f.value (ts ++ us) ≠ g.value (ts ++ us)

/-- Two formulas over the same predicates that always agree, or that can be told apart. -/
structure Compared (agree : Bool) (f g : Formula) : Prop where
  leaves : f.leaves = g.leaves
  left : f.Proper
  right : g.Proper
  same : agree = true → ∀ ts, f.value ts = g.value ts
  differ : agree = false → Differ f g

/-- Two lists of formulas, compared one by one. -/
inductive ComparedAll : Bool → List Formula → List Formula → Prop where
  | nil : ComparedAll true [] []
  | cons {agree rest : Bool} {f g : Formula} {fs gs : List Formula} :
    Compared agree f g → ComparedAll rest fs gs → ComparedAll (agree && rest) (f :: fs) (g :: gs)

theorem Compared.refl {f : Formula} (hf : f.Proper) : Compared true f f :=
  ⟨rfl, hf, hf, fun _ _ => rfl, fun h => Bool.noConfusion h⟩

/-- Comparing reads off how a formula behaves, not how it is built. -/
theorem Compared.congr {agree : Bool} {f f' g : Formula} (h : Compared agree f g)
    (hleaves : f'.leaves = f.leaves) (hf' : f'.Proper) (hvalue : ∀ ts, f'.value ts = f.value ts) :
    Compared agree f' g := by
  refine ⟨hleaves.trans h.leaves, hf', h.right, fun ha ts => ?_, fun ha => ?_⟩
  · rw [hvalue, h.same ha]
  · obtain ⟨ts, hlength, hdiffer⟩ := h.differ ha
    refine ⟨ts, by rw [hlength, hleaves], fun us => ?_⟩
    rw [hvalue]
    exact hdiffer us

theorem Compared.agree_iff {agree : Bool} {f g : Formula} (h : Compared agree f g) :
    (∀ ts, f.value ts = g.value ts) ↔ agree = true := by
  refine ⟨fun hsame => ?_, h.same⟩
  cases hagree : agree with
  | true => rfl
  | false =>
    obtain ⟨ts, _, hdiffer⟩ := h.differ hagree
    exact absurd (hsame _) (hdiffer [])

theorem Compared.not {agree : Bool} {f g : Formula} (h : Compared agree f g) :
    Compared agree (.not f) (.not g) := by
  refine ⟨by rw [Formula.leaves, Formula.leaves, h.leaves], .not h.left, .not h.right, ?_, ?_⟩
  · intro ha ts
    rw [value, value, h.same ha]
  · intro ha
    obtain ⟨ts, hlength, hdiffer⟩ := h.differ ha
    refine ⟨ts, by rw [hlength, Formula.leaves, List.length_map], fun us => ?_⟩
    exact fun heq => hdiffer us (Truth.not_inj heq)

namespace ComparedAll

variable {agree : Bool} {fs gs : List Formula}

theorem leaves (h : ComparedAll agree fs gs) : leavesList fs = leavesList gs := by
  induction h with
  | nil => rfl
  | cons hf _ ih => rw [leavesList, leavesList, hf.leaves, ih]

theorem left (h : ComparedAll agree fs gs) : ∀ f ∈ fs, f.Proper := by
  induction h with
  | nil => simp
  | cons hf _ ih => exact List.forall_mem_cons.mpr ⟨hf.left, ih⟩

theorem right (h : ComparedAll agree fs gs) : ∀ g ∈ gs, g.Proper := by
  induction h with
  | nil => simp
  | cons hf _ ih => exact List.forall_mem_cons.mpr ⟨hf.right, ih⟩

theorem ne_nil (h : ComparedAll agree fs gs) (hfs : fs ≠ []) : gs ≠ [] := by
  cases h with
  | nil => exact hfs
  | cons => simp

theorem values_eq (h : ComparedAll agree fs gs) (ha : agree = true) (ts : List Truth) :
    values fs ts = values gs ts := by
  induction h generalizing ts with
  | nil => rfl
  | cons hf _ ih =>
    rw [Bool.and_eq_true] at ha
    rw [values, values, hf.same ha.1, ih ha.2, hf.leaves]

/-- A difference in one place shows in the whole, when the formulas beside it favor the value that
is neutral there. -/
theorem foldr_ne {op : Truth → Truth → Truth} {e : Truth} (hleft : ∀ a, op e a = a)
    (hright : ∀ a, op a e = a) (h : ComparedAll agree fs gs) (ha : agree = false) :
    ∃ ts : List Truth, ts.length = (leavesList fs).length ∧
      ∀ us, (values fs (ts ++ us)).foldr op e ≠ (values gs (ts ++ us)).foldr op e := by
  induction h with
  | nil => cases ha
  | @cons agree rest f g fs gs hf hfs ih =>
    -- Only one difference is needed: where `f` and `g` differ, the rest need not.
    by_cases hagree : agree = false
    · obtain ⟨ts, hlength, hdiffer⟩ := hf.differ hagree
      refine ⟨ts ++ favor e (leavesList fs), ?_, fun us => ?_⟩
      · rw [List.length_append, hlength, length_favor, leavesList, List.length_append]
      · have hneutral := @Truth.foldr_replicate op e (hleft e)
        have hrest := values_favor us fun k hk us => value_favor (hfs.left k hk) e us
        have hrest' := values_favor us fun k hk us => value_favor (hfs.right k hk) e us
        rw [← hfs.leaves] at hrest'
        have hdrop : (ts ++ (favor e (leavesList fs) ++ us)).drop f.leaves.length =
            favor e (leavesList fs) ++ us := by rw [← hlength, List.drop_left]
        rw [List.append_assoc, values, values, ← hf.leaves, hdrop, hrest, hrest', List.foldr_cons,
          List.foldr_cons, hneutral, hneutral, hright, hright]
        exact hdiffer _
    · have hrest : rest = false := by simpa [hagree] using ha
      obtain ⟨ts, hlength, hdiffer⟩ := ih hrest
      refine ⟨favor e f.leaves ++ ts, ?_, fun us => ?_⟩
      · rw [List.length_append, hlength, length_favor, leavesList, List.length_append]
      · have hg := value_favor hf.right e (ts ++ us)
        rw [← hf.leaves] at hg
        rw [List.append_assoc, values, values, ← hf.leaves, value_favor hf.left, hg,
          drop_favor_append, List.foldr_cons, List.foldr_cons, hleft, hleft]
        exact hdiffer us

end ComparedAll

theorem ComparedAll.all {agree : Bool} {fs gs : List Formula} (h : ComparedAll agree fs gs)
    (hfs : fs ≠ []) : Compared agree (.all fs) (.all gs) where
  leaves := h.leaves
  left := .all hfs h.left
  right := .all (h.ne_nil hfs) h.right
  same ha ts := by rw [value, value, h.values_eq ha]
  differ ha := h.foldr_ne Truth.yes_and Truth.and_yes ha

theorem ComparedAll.any {agree : Bool} {fs gs : List Formula} (h : ComparedAll agree fs gs)
    (hfs : fs ≠ []) : Compared agree (.any fs) (.any gs) where
  leaves := h.leaves
  left := .any hfs h.left
  right := .any (h.ne_nil hfs) h.right
  same ha ts := by rw [value, value, h.values_eq ha]
  differ ha := h.foldr_ne Truth.no_or Truth.or_no ha

end Formula

end Rowset.Reading
