import Rowset.Proofs.Reading.Token

/-!
# Reading a predicate: nesting

Tokens are nested by their brackets in one pass with a stack: an opening bracket puts away what
stands before it, and the closing bracket of the same kind takes it up again. What is nested on
its own can be nested on top of any stack (`nest_onto`), so texts that are put together are nested
part by part (`trees?_append`, `trees?_parenthesized`).
-/

namespace Rowset.Reading

/-- A token, or what stands between two brackets. -/
inductive Tree where
  | token (t : Token)
  | group (bracket : Bracket) (members : List Tree)

/-- How far the tokens have been nested: what stands since the last open bracket, and for each open
bracket, innermost first, what stands before it. -/
structure Nesting where
  inner : List Tree
  outer : List (Bracket × List Tree)

namespace Nesting

/-- Takes in a token. -/
def step (s : Nesting) : Token → Option Nesting
  | .opening bracket => some ⟨[], (bracket, s.inner) :: s.outer⟩
  | .closing bracket =>
    match s.outer with
    | [] => none
    | (opened, before) :: outer =>
      if opened = bracket then some ⟨before ++ [.group bracket s.inner], outer⟩ else none
  | t => some ⟨s.inner ++ [.token t], s.outer⟩

/-- A nesting on top of another one. -/
def onto (base : Nesting) (inner : List Tree) : List (Bracket × List Tree) → Nesting
  | [] => ⟨base.inner ++ inner, base.outer⟩
  | (bracket, before) :: outer =>
    ⟨inner, (bracket, (onto base before outer).inner) :: (onto base before outer).outer⟩

theorem onto_append (base : Nesting) (inner more : List Tree) (outer : List (Bracket × List Tree)) :
    onto base (inner ++ more) outer =
      ⟨(onto base inner outer).inner ++ more, (onto base inner outer).outer⟩ := by
  cases outer with
  | nil => simp [onto]
  | cons frame outer => rfl

/-- A step is taken on top of any nesting. -/
theorem step_onto (base : Nesting) {s s' : Nesting} {t : Token} (h : s.step t = some s') :
    (onto base s.inner s.outer).step t = some (onto base s'.inner s'.outer) := by
  obtain ⟨inner, outer⟩ := s
  cases t with
  | opening bracket =>
    cases h
    rfl
  | closing bracket =>
    cases outer with
    | nil => cases h
    | cons frame outer =>
      obtain ⟨opened, before⟩ := frame
      simp only [step] at h
      split_ifs at h with hopened
      cases h
      simp only [onto, step, if_pos hopened, onto_append]
  | word | quoted | marker | symbol =>
    cases h
    simp only [step, onto_append]

end Nesting

/-- The nesting after some tokens. -/
def nest (s : Nesting) (ts : List Token) : Option Nesting :=
  ts.foldlM Nesting.step s

/-- The trees of some tokens, if every bracket is closed. -/
def nested? (ts : List Token) : Option (List Tree) :=
  match nest ⟨[], []⟩ ts with
  | some ⟨inner, []⟩ => some inner
  | _ => none

theorem nest_append (s : Nesting) (ts us : List Token) :
    nest s (ts ++ us) = (nest s ts).bind (nest · us) :=
  List.foldlM_append

theorem nest_cons {s s' : Nesting} {t : Token} (h : s.step t = some s') (ts : List Token) :
    nest s (t :: ts) = nest s' ts := by
  rw [nest, List.foldlM_cons, h]
  rfl

theorem nest_onto (base : Nesting) : ∀ {ts : List Token} {s s' : Nesting}, nest s ts = some s' →
    nest (Nesting.onto base s.inner s.outer) ts = some (Nesting.onto base s'.inner s'.outer)
  | [], s, s', h => by
    cases h
    rfl
  | t :: ts, s, s', h => by
    rw [nest, List.foldlM_cons] at h
    obtain ⟨mid, hmid, hrest⟩ := Option.bind_eq_some_iff.mp h
    rw [nest_cons (Nesting.step_onto base hmid)]
    exact nest_onto base hrest

theorem nest_of_nested? {ts : List Token} {as : List Tree} (h : nested? ts = some as) :
    nest ⟨[], []⟩ ts = some ⟨as, []⟩ := by
  unfold nested? at h
  split at h
  · next hn =>
    cases h
    exact hn
  · cases h

/-- What is nested on its own is nested behind anything. -/
theorem nest_base {ts : List Token} {as : List Tree} (h : nested? ts = some as) (base : Nesting) :
    nest base ts = some ⟨base.inner ++ as, base.outer⟩ := by
  have honto := nest_onto base (nest_of_nested? h)
  simpa [Nesting.onto] using honto

theorem nested?_append {ts us : List Token} {as bs : List Tree} (ha : nested? ts = some as)
    (hb : nested? us = some bs) : nested? (ts ++ us) = some (as ++ bs) := by
  rw [nested?, nest_append, nest_base ha, Option.bind_some, nest_base hb]
  rfl

theorem nested?_group (bracket : Bracket) {ts : List Token} {as : List Tree}
    (ha : nested? ts = some as) :
    nested? (.opening bracket :: ts ++ [.closing bracket]) = some [.group bracket as] := by
  have hopen : Nesting.step ⟨[], []⟩ (.opening bracket) = some ⟨[], [(bracket, [])]⟩ := rfl
  have hclose : Nesting.step ⟨[] ++ as, [(bracket, [])]⟩ (.closing bracket) =
      some ⟨[.group bracket as], []⟩ := by simp [Nesting.step]
  rw [nested?, List.cons_append, nest_cons hopen, nest_append, nest_base ha, Option.bind_some,
    nest_cons hclose]
  rfl

/-- Holds of the tokens that are no brackets. -/
def Token.isFlat : Token → Bool
  | .opening _ => false
  | .closing _ => false
  | _ => true

theorem nested?_of_isFlat : ∀ {ts : List Token}, (∀ t ∈ ts, t.isFlat = true) →
    nested? ts = some (ts.map .token)
  | [], _ => rfl
  | t :: ts, h => by
    have ih := nested?_of_isFlat fun u hu => h u (List.mem_cons_of_mem t hu)
    have ht := h t List.mem_cons_self
    have hone : nested? [t] = some [.token t] := by
      cases t with
      | opening | closing => cases ht
      | word | quoted | marker | symbol => rfl
    exact nested?_append hone ih

/-- **The trees of a text.** -/
def trees? (text : String) : Option (List Tree) :=
  (tokens? text).bind nested?

theorem trees?_eq_some {text : String} {as : List Tree} :
    trees? text = some as ↔ ∃ ts, tokens? text = some ts ∧ nested? ts = some as :=
  Option.bind_eq_some_iff

theorem trees?_append {a b : String} {as bs : List Tree} (ha : trees? a = some as)
    (hb : trees? b = some bs) (hd : isDelimited b = true) : trees? (a ++ b) = some (as ++ bs) := by
  obtain ⟨ts, hts, has⟩ := trees?_eq_some.mp ha
  obtain ⟨us, hus, hbs⟩ := trees?_eq_some.mp hb
  refine trees?_eq_some.mpr ⟨ts ++ us, ?_, nested?_append has hbs⟩
  rw [tokens?_append hts hd, hus, Option.map_some]

theorem trees?_blank_append (b : String) : trees? (" " ++ b) = trees? b := by
  rw [trees?, tokens?_blank_append, trees?]

theorem trees?_parenthesized {a : String} {as : List Tree} (ha : trees? a = some as) :
    trees? ("(" ++ a ++ ")") = some [.group .round as] := by
  obtain ⟨ts, hts, has⟩ := trees?_eq_some.mp ha
  have hclose : tokens? ")" = some [.closing .round] := by decide
  refine trees?_eq_some.mpr ⟨_, ?_, nested?_group .round has⟩
  rw [String.append_assoc, tokens?_opening_append, tokens?_append hts (by decide), hclose]
  rfl

end Rowset.Reading
