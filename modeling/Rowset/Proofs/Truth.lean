/-!
# Truth values

A predicate holds of a row, or does not, or is unknown, the last where a missing value keeps it
from being decided. The connectives are the strong ones of three-valued logic: `no` settles a
conjunction and `yes` a disjunction whatever else stands there, and only between these two does
`unknown` spread.
-/

namespace Rowset

/-- The truth values of a predicate. -/
inductive Truth where
  | no
  | unknown
  | yes
  deriving DecidableEq, Repr

namespace Truth

/-- Negation. -/
def not : Truth → Truth
  | .no => .yes
  | .unknown => .unknown
  | .yes => .no

/-- Conjunction. -/
def and : Truth → Truth → Truth
  | .no, _ => .no
  | .yes, b => b
  | .unknown, .no => .no
  | .unknown, _ => .unknown

/-- Disjunction. -/
def or : Truth → Truth → Truth
  | .yes, _ => .yes
  | .no, b => b
  | .unknown, .yes => .yes
  | .unknown, _ => .unknown

/-- The truth value of a test that is always decided. -/
def ofBool (b : Bool) : Truth :=
  if b then .yes else .no

/-- Negation where it is asked for. -/
def negatedIf (negated : Bool) (t : Truth) : Truth :=
  if negated then t.not else t

/-- The conjunction of some truth values; it holds when there are none. -/
def all (ts : List Truth) : Truth :=
  ts.foldr and .yes

/-- The disjunction of some truth values; it does not hold when there are none. -/
def any (ts : List Truth) : Truth :=
  ts.foldr or .no

@[simp] theorem not_not (a : Truth) : a.not.not = a := by cases a <;> rfl

@[simp] theorem yes_and (a : Truth) : yes.and a = a := rfl

@[simp] theorem no_and (a : Truth) : no.and a = no := rfl

@[simp] theorem and_yes (a : Truth) : a.and .yes = a := by cases a <;> rfl

@[simp] theorem and_no (a : Truth) : a.and .no = .no := by cases a <;> rfl

@[simp] theorem yes_or (a : Truth) : yes.or a = yes := rfl

@[simp] theorem no_or (a : Truth) : no.or a = a := rfl

@[simp] theorem or_yes (a : Truth) : a.or .yes = .yes := by cases a <;> rfl

@[simp] theorem or_no (a : Truth) : a.or .no = a := by cases a <;> rfl

@[simp] theorem negatedIf_true (a : Truth) : negatedIf true a = a.not := rfl

@[simp] theorem negatedIf_false (a : Truth) : negatedIf false a = a := rfl

theorem not_ofBool (b : Bool) : (ofBool b).not = ofBool !b := by cases b <;> rfl

theorem and_assoc (a b c : Truth) : (a.and b).and c = a.and (b.and c) := by
  cases a <;> cases b <;> cases c <;> rfl

theorem or_assoc (a b c : Truth) : (a.or b).or c = a.or (b.or c) := by
  cases a <;> cases b <;> cases c <;> rfl

theorem eq_yes_of_and_eq_yes {a b : Truth} (h : a.and b = .yes) : a = .yes := by
  cases a with
  | yes => rfl
  | no => cases h
  | unknown => cases b <;> cases h

theorem not_inj {a b : Truth} (h : a.not = b.not) : a = b := by
  rw [← not_not a, h, not_not]

@[simp] theorem all_nil : all [] = yes := rfl

@[simp] theorem all_cons (a : Truth) (ts : List Truth) : all (a :: ts) = a.and (all ts) := rfl

@[simp] theorem any_nil : any [] = no := rfl

@[simp] theorem any_cons (a : Truth) (ts : List Truth) : any (a :: ts) = a.or (any ts) := rfl

theorem all_append (as bs : List Truth) : all (as ++ bs) = (all as).and (all bs) := by
  induction as with
  | nil => rfl
  | cons a as ih => rw [List.cons_append, all_cons, ih, all_cons, and_assoc]

theorem any_append (as bs : List Truth) : any (as ++ bs) = (any as).or (any bs) := by
  induction as with
  | nil => rfl
  | cons a as ih => rw [List.cons_append, any_cons, ih, any_cons, or_assoc]

theorem foldr_replicate {op : Truth → Truth → Truth} {a : Truth} (hidem : op a a = a) (n : Nat) :
    (List.replicate n a).foldr op a = a := by
  induction n with
  | zero => rfl
  | succ n ih => rw [List.replicate_succ, List.foldr_cons, ih, hidem]

theorem all_replicate {n : Nat} (hn : n ≠ 0) (a : Truth) : all (List.replicate n a) = a := by
  obtain ⟨m, rfl⟩ := Nat.exists_eq_succ_of_ne_zero hn
  have hidem : a.and a = a := by cases a <;> rfl
  rw [List.replicate_succ', all, List.foldr_append, List.foldr_cons, List.foldr_nil, and_yes]
  exact foldr_replicate hidem m

theorem any_replicate {n : Nat} (hn : n ≠ 0) (a : Truth) : any (List.replicate n a) = a := by
  obtain ⟨m, rfl⟩ := Nat.exists_eq_succ_of_ne_zero hn
  have hidem : a.or a = a := by cases a <;> rfl
  rw [List.replicate_succ', any, List.foldr_append, List.foldr_cons, List.foldr_nil, or_no]
  exact foldr_replicate hidem m

end Truth

end Rowset
