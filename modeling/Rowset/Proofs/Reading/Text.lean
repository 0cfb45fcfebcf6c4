import Rowset.Proofs.Reading.Clause

/-!
# Reading a predicate: texts

`read?` reads a text by the precedences of the language. Parentheses come first, then the tests,
then NOT, then AND, then OR. A test is not looked into, but for the AND of a range, which belongs
to the BETWEEN before it; so any words that stand between two connectives are a predicate, unless
all of them are one pair of parentheses, which is read inside.

What a text is read as does not change when it is put together with others: an OR between two texts
appends their clauses, an AND melds them (`read?_or`, `read?_and`), and parentheses make a text a
single formula (`read?_parenthesized`, `read?_not`).
-/

namespace Rowset.Reading

open Clauses (meld Proper)

/-- A tree, with the formula that it stands for when it stands alone. -/
abbrev Item := Tree × Option Formula

/-- Holds of the trees that are a word of the language, given in lower case. -/
def Tree.isWord (text : String) : Tree → Bool
  | .token t => t == .word text
  | .group .. => false

/-- The formula between two connectives. -/
def factor? : List Item → Option Formula
  | [] => none
  | (tree, reading) :: rest =>
    if tree.isWord "not" then (factor? rest).map .not
    else
      match rest, reading with
      | [], some f => some f
      | _, _ => some (.predicate (tree :: rest.map (·.1)))

/-- Splits items at the connectives between them, behind some that have been read since the last
connective, with some ranges among them whose second bound is still to come. -/
def split? (ranges : Nat) (before : List Item) : List Item → Option Clauses
  | [] => if ranges = 0 then (factor? before).map fun f => [[f]] else none
  | item :: rest =>
    if item.1.isWord "or" then
      if ranges = 0 then
        (factor? before).bind fun f => (split? 0 [] rest).map fun cs => [f] :: cs
      else none
    else if item.1.isWord "and" then
      if ranges = 0 then (factor? before).bind fun f => (split? 0 [] rest).map (meld [[f]])
      else split? (ranges - 1) (before ++ [item]) rest
    else if item.1.isWord "between" then split? (ranges + 1) (before ++ [item]) rest
    else split? ranges (before ++ [item]) rest

/-- Holds of the items that are a query and no predicate. -/
def isQuery : List Item → Bool
  | [] => false
  | item :: _ => item.1.isWord "select" || item.1.isWord "with"

/-- The clauses of some items. -/
def clauses? (items : List Item) : Option Clauses :=
  if isQuery items then none else split? 0 [] items

mutual

/-- A tree as an item: what stands in parentheses is read as a formula. -/
def Tree.item : Tree → Item
  | .group .round members => (.group .round members, (clauses? (items members)).map Clauses.formula)
  | tree => (tree, none)

/-- Some trees as items. -/
def items : List Tree → List Item
  | [] => []
  | tree :: trees => tree.item :: items trees

end

/-- **The clauses of a text.** -/
def read? (text : String) : Option Clauses :=
  (trees? text).bind fun trees => clauses? (items trees)

/-- The formula that a text is read as. -/
def formula? (text : String) : Option Formula :=
  (read? text).map Clauses.formula

example : (formula? "a = 1 OR NOT b BETWEEN 1 AND 2 AND (c OR d)").map
    (·.value [.no, .no, .no, .yes]) = some .yes := by decide +kernel

example : (formula? "a = ' OR ' /* OR */ AND CASE WHEN b OR c THEN 1 END = 1").map
    (·.leaves.length) = some 2 := by decide +kernel

theorem read?_eq_some {text : String} {cs : Clauses} :
    read? text = some cs ↔ ∃ trees, trees? text = some trees ∧ clauses? (items trees) = some cs :=
  Option.bind_eq_some_iff

theorem items_append (as bs : List Tree) : items (as ++ bs) = items as ++ items bs := by
  induction as with
  | nil => rfl
  | cons a as ih => rw [List.cons_append, items, ih, items, List.cons_append]

theorem item_token (t : Token) : (Tree.token t).item = (.token t, none) := by
  rw [Tree.item]
  intro members h
  cases h

theorem item_fst (tree : Tree) : tree.item.1 = tree := by
  rcases tree with t | ⟨bracket, members⟩
  · rw [item_token]
  · cases bracket <;> simp [Tree.item]

theorem map_fst_items (trees : List Tree) : (items trees).map (·.1) = trees := by
  induction trees with
  | nil => rfl
  | cons tree trees ih => rw [items, List.map_cons, ih, item_fst]

theorem factor?_of_unread {tree : Tree} (h : tree.isWord "not" = false) (rest : List Item) :
    factor? ((tree, none) :: rest) = some (.predicate (tree :: rest.map (·.1))) := by
  unfold factor?
  rw [h]
  cases rest <;> rfl

/-! ### Splitting -/

theorem split?_ne_nil : ∀ {ranges : Nat} {before items : List Item} {cs : Clauses},
    split? ranges before items = some cs → cs ≠ []
  | ranges, before, [], cs, h => by
    rw [split?] at h
    split_ifs at h
    obtain ⟨f, _, rfl⟩ := Option.map_eq_some_iff.mp h
    exact List.cons_ne_nil _ _
  | ranges, before, item :: rest, cs, h => by
    rw [split?] at h
    split_ifs at h
    · obtain ⟨f, _, h⟩ := Option.bind_eq_some_iff.mp h
      obtain ⟨ds, _, rfl⟩ := Option.map_eq_some_iff.mp h
      exact List.cons_ne_nil _ _
    · obtain ⟨f, _, h⟩ := Option.bind_eq_some_iff.mp h
      obtain ⟨ds, _, rfl⟩ := Option.map_eq_some_iff.mp h
      exact Clauses.meld_ne_nil _ (List.cons_ne_nil _ _)
    · exact split?_ne_nil h
    · exact split?_ne_nil h
    · exact split?_ne_nil h

/-- Items and a connective behind them. What is joined to the last factor is joined to the clauses
before it, since the connectives before it stay as they are. -/
theorem split?_joined {join : Clauses → Clauses → Clauses} {connective : Item} {more : List Item}
    {ds : Clauses}
    (hlast : ∀ {before : List Item} {f : Formula}, factor? before = some f →
      split? 0 before (connective :: more) = some (join [[f]] ds))
    (hor : ∀ (f : Formula) {es : Clauses}, es ≠ [] → join ([f] :: es) ds = [f] :: join es ds)
    (hand : ∀ (f : Formula) {es : Clauses}, es ≠ [] →
      join (meld [[f]] es) ds = meld [[f]] (join es ds)) :
    ∀ {ranges : Nat} {before items : List Item} {cs : Clauses},
      split? ranges before items = some cs →
        split? ranges before (items ++ connective :: more) = some (join cs ds)
  | ranges, before, [], cs, h => by
    rw [split?] at h
    split_ifs at h with hranges
    obtain ⟨f, hf, rfl⟩ := Option.map_eq_some_iff.mp h
    rw [List.nil_append, hranges]
    exact hlast hf
  | ranges, before, item :: rest, cs, h => by
    rw [split?] at h
    rw [List.cons_append, split?]
    split_ifs at h ⊢
    · obtain ⟨f, hf, h⟩ := Option.bind_eq_some_iff.mp h
      obtain ⟨es, hes, rfl⟩ := Option.map_eq_some_iff.mp h
      rw [hf, split?_joined hlast hor hand hes, hor f (split?_ne_nil hes)]
      rfl
    · obtain ⟨f, hf, h⟩ := Option.bind_eq_some_iff.mp h
      obtain ⟨es, hes, rfl⟩ := Option.map_eq_some_iff.mp h
      rw [hf, split?_joined hlast hor hand hes, hand f (split?_ne_nil hes)]
      rfl
    · exact split?_joined hlast hor hand h
    · exact split?_joined hlast hor hand h
    · exact split?_joined hlast hor hand h

/-- Items and an OR behind them. -/
theorem split?_or {connective : Item} (hor : connective.1.isWord "or" = true) {more : List Item}
    {ds : Clauses} (hmore : split? 0 [] more = some ds) {is : List Item} {cs : Clauses}
    (h : split? 0 [] is = some cs) : split? 0 [] (is ++ connective :: more) = some (cs ++ ds) := by
  refine split?_joined (fun {before f} hf => ?_) (fun f es _ => List.cons_append) ?_ h
  · rw [split?, if_pos hor, if_pos rfl, hf, hmore]
    rfl
  · intro f es hes
    exact (Clauses.meld_append [[f]] ds hes).symm

theorem isWord_or_of_and {tree : Tree} (h : tree.isWord "and" = true) :
    tree.isWord "or" = false := by
  cases tree with
  | token t =>
    have ht : t = .word "and" := beq_iff_eq.mp h
    rw [ht]
    decide
  | group => rfl

/-- Items and an AND behind them. -/
theorem split?_and {connective : Item} (hand : connective.1.isWord "and" = true)
    {more : List Item} {ds : Clauses} (hmore : split? 0 [] more = some ds) {is : List Item}
    {cs : Clauses} (h : split? 0 [] is = some cs) :
    split? 0 [] (is ++ connective :: more) = some (meld cs ds) := by
  have hor : ¬ connective.1.isWord "or" = true := by
    rw [isWord_or_of_and hand]
    decide
  refine split?_joined (fun {before f} hf => ?_) ?_ ?_ h
  · rw [split?, if_neg hor, if_pos hand, if_pos rfl, hf, hmore]
    rfl
  · intro f es hes
    exact Clauses.meld_cons [f] hes ds
  · intro f es hes
    exact Clauses.meld_assoc [f] hes (split?_ne_nil hmore)

/-- A tree that splits nothing. -/
def Tree.isInner (tree : Tree) : Bool :=
  !(tree.isWord "or" || tree.isWord "and" || tree.isWord "between")

/-- What splits nothing is only read on. -/
theorem split?_inner (ranges : Nat) (more : List Item) : ∀ {trees : List Tree} (before : List Item),
    (∀ tree ∈ trees, tree.isInner = true) →
      split? ranges before (items trees ++ more) = split? ranges (before ++ items trees) more
  | [], before, _ => by rw [items, List.nil_append, List.append_nil]
  | tree :: trees, before, h => by
    have htree := h tree List.mem_cons_self
    have ih := split?_inner ranges more (before ++ [tree.item]) fun t ht =>
      h t (List.mem_cons_of_mem tree ht)
    simp only [Tree.isInner, Bool.not_eq_true', Bool.or_eq_false_iff] at htree
    rw [items, List.cons_append, split?, item_fst, htree.1.1, htree.1.2, htree.2]
    simpa using ih

/-! ### No empty groups -/

/-- Items of which each is read as a proper formula, if as any. -/
def ProperItems (is : List Item) : Prop :=
  ∀ item ∈ is, ∀ f, item.2 = some f → f.Proper

theorem proper_factor? : ∀ {is : List Item} {f : Formula}, ProperItems is → factor? is = some f →
    f.Proper
  | (tree, reading) :: rest, f, h, hf => by
    unfold factor? at hf
    split_ifs at hf
    · obtain ⟨g, hg, rfl⟩ := Option.map_eq_some_iff.mp hf
      exact .not (proper_factor? (fun i hi => h i (List.mem_cons_of_mem _ hi)) hg)
    · split at hf
      · cases hf
        exact h _ List.mem_cons_self f rfl
      · cases hf
        exact .predicate _

theorem proper_split? : ∀ {ranges : Nat} {before is : List Item} {cs : Clauses},
    ProperItems before → ProperItems is → split? ranges before is = some cs → Proper cs
  | ranges, before, [], cs, hb, _, h => by
    rw [split?] at h
    split_ifs at h
    obtain ⟨f, hf, rfl⟩ := Option.map_eq_some_iff.mp h
    exact Clauses.proper_singleton (proper_factor? hb hf)
  | ranges, before, item :: rest, cs, hb, his, h => by
    have hrest : ProperItems rest := fun i hi => his i (List.mem_cons_of_mem item hi)
    have hnil : ProperItems [] := fun i hi => absurd hi List.not_mem_nil
    have hread : ProperItems (before ++ [item]) := by
      intro i hi
      rcases List.mem_append.mp hi with hi | hi
      · exact hb i hi
      · rw [List.mem_singleton] at hi
        rw [hi]
        exact his item List.mem_cons_self
    rw [split?] at h
    split_ifs at h
    · obtain ⟨f, hf, h⟩ := Option.bind_eq_some_iff.mp h
      obtain ⟨ds, hds, rfl⟩ := Option.map_eq_some_iff.mp h
      have hfirst := Clauses.proper_singleton (proper_factor? hb hf)
      have hmore := proper_split? hnil hrest hds
      refine ⟨List.cons_ne_nil _ _, fun a ha => ?_⟩
      rcases List.mem_cons.mp ha with rfl | ha
      · exact hfirst.2 _ List.mem_cons_self
      · exact hmore.2 a ha
    · obtain ⟨f, hf, h⟩ := Option.bind_eq_some_iff.mp h
      obtain ⟨ds, hds, rfl⟩ := Option.map_eq_some_iff.mp h
      exact Clauses.proper_meld (Clauses.proper_singleton (proper_factor? hb hf))
        (proper_split? hnil hrest hds)
    · exact proper_split? hread hrest h
    · exact proper_split? hread hrest h
    · exact proper_split? hread hrest h

theorem proper_clauses? {is : List Item} {cs : Clauses} (his : ProperItems is)
    (h : clauses? is = some cs) : Proper cs := by
  unfold clauses? at h
  split_ifs at h
  exact proper_split? (fun i hi => absurd hi List.not_mem_nil) his h

mutual

theorem proper_item : ∀ (tree : Tree) (f : Formula), tree.item.2 = some f → f.Proper
  | .token t, f, h => by simp [Tree.item] at h
  | .group .round members, f, h => by
    rw [Tree.item] at h
    obtain ⟨cs, hcs, rfl⟩ := Option.map_eq_some_iff.mp h
    exact Clauses.proper_formula (proper_clauses? (proper_items members) hcs)
  | .group .square members, f, h => by simp [Tree.item] at h
  | .group .choice members, f, h => by simp [Tree.item] at h

theorem proper_items : ∀ trees : List Tree, ProperItems (items trees)
  | [], i, hi => absurd hi List.not_mem_nil
  | tree :: trees, i, hi => by
    rw [items] at hi
    rcases List.mem_cons.mp hi with rfl | hi
    · exact proper_item tree
    · exact proper_items trees i hi

end

theorem proper_read? {text : String} {cs : Clauses} (h : read? text = some cs) : Proper cs := by
  obtain ⟨trees, _, hcs⟩ := read?_eq_some.mp h
  exact proper_clauses? (proper_items trees) hcs

/-! ### Texts put together -/

theorem ne_nil_of_clauses? {is : List Item} {cs : Clauses} (h : clauses? is = some cs) :
    is ≠ [] := by
  rintro rfl
  cases h

theorem split?_of_clauses? {is : List Item} {cs : Clauses} (h : clauses? is = some cs) :
    isQuery is = false ∧ split? 0 [] is = some cs := by
  unfold clauses? at h
  split_ifs at h with hquery
  exact ⟨Bool.eq_false_iff.mpr hquery, h⟩

theorem clauses?_append {is more : List Item} {cs ds : Clauses} (h : clauses? is = some cs)
    (hsplit : split? 0 [] (is ++ more) = some ds) : clauses? (is ++ more) = some ds := by
  obtain ⟨item, is, rfl⟩ := List.exists_cons_of_ne_nil (ne_nil_of_clauses? h)
  have hquery : isQuery (item :: is ++ more) = false := (split?_of_clauses? h).1
  rw [clauses?, hquery]
  exact hsplit

theorem trees?_words_append {text b : String} {words bs : List Tree}
    (hwords : trees? text = some words) (hb : trees? b = some bs) :
    trees? (text ++ " " ++ b) = some (words ++ bs) := by
  have hmore : trees? (" " ++ b) = some bs := by rw [trees?_blank_append, hb]
  rw [String.append_assoc]
  exact trees?_append hwords hmore (isDelimited_append _ (by decide) (by decide))

/-- Two texts with words and a blank between them. -/
theorem trees?_joined {a words b : String} {as ws bs : List Tree} (ha : trees? a = some as)
    (hwords : trees? words = some ws) (hne : words ≠ "") (hd : isDelimited words = true)
    (hb : trees? b = some bs) : trees? (a ++ (words ++ " ") ++ b) = some (as ++ (ws ++ bs)) := by
  have hblank : isDelimited (words ++ " ") = true := isDelimited_append " " hne hd
  have hne' : words ++ " " ≠ "" := fun h => hne (String.append_eq_empty_iff.mp h).1
  rw [String.append_assoc]
  exact trees?_append ha (trees?_words_append hwords hb) (isDelimited_append b hne' hblank)

section Join
variable {a b : String} {as bs : Clauses} (ha : read? a = some as) (hb : read? b = some bs)
include ha hb

/-- **Two texts with an OR between them.** -/
theorem read?_or : read? (a ++ " OR " ++ b) = some (as ++ bs) := by
  obtain ⟨left, hleft, has⟩ := read?_eq_some.mp ha
  obtain ⟨right, hright, hbs⟩ := read?_eq_some.mp hb
  have hword : trees? " OR" = some [.token (.word "or")] := rfl
  have hspaced : " OR " = " OR" ++ " " := by decide
  have hor : (Tree.token (.word "or")).item.1.isWord "or" = true := rfl
  refine read?_eq_some.mpr ⟨left ++ .token (.word "or") :: right, ?_, ?_⟩
  · rw [hspaced]
    exact trees?_joined hleft hword (by decide) (by decide) hright
  · rw [items_append, items]
    exact clauses?_append has
      (split?_or hor (split?_of_clauses? hbs).2 (split?_of_clauses? has).2)

/-- **Two texts with an AND between them.** -/
theorem read?_and : read? (a ++ " AND " ++ b) = some (meld as bs) := by
  obtain ⟨left, hleft, has⟩ := read?_eq_some.mp ha
  obtain ⟨right, hright, hbs⟩ := read?_eq_some.mp hb
  have hword : trees? " AND" = some [.token (.word "and")] := rfl
  have hspaced : " AND " = " AND" ++ " " := by decide
  have hand : (Tree.token (.word "and")).item.1.isWord "and" = true := rfl
  refine read?_eq_some.mpr ⟨left ++ .token (.word "and") :: right, ?_, ?_⟩
  · rw [hspaced]
    exact trees?_joined hleft hword (by decide) (by decide) hright
  · rw [items_append, items]
    exact clauses?_append has
      (split?_and hand (split?_of_clauses? hbs).2 (split?_of_clauses? has).2)

end Join

/-- **A text in parentheses** is a single formula. -/
theorem read?_parenthesized {a : String} {as : Clauses} (ha : read? a = some as) :
    read? ("(" ++ a ++ ")") = some [[Clauses.formula as]] := by
  obtain ⟨trees, htrees, has⟩ := read?_eq_some.mp ha
  refine read?_eq_some.mpr ⟨_, trees?_parenthesized htrees, ?_⟩
  rw [items, Tree.item, has]
  rfl

/-- A text in parentheses behind NOT is the negation of a single formula. -/
theorem read?_not {a : String} {as : Clauses} (ha : read? a = some as) :
    read? ("NOT " ++ ("(" ++ a ++ ")")) = some [[.not (Clauses.formula as)]] := by
  obtain ⟨trees, htrees, has⟩ := read?_eq_some.mp ha
  have hword : trees? "NOT" = some [.token (.word "not")] := rfl
  have hspaced : "NOT " = "NOT" ++ " " := by decide
  refine read?_eq_some.mpr
    ⟨[.token (.word "not"), .group .round trees], ?_, ?_⟩
  · rw [hspaced]
    exact trees?_words_append hword (trees?_parenthesized htrees)
  · rw [items, items, Tree.item, Tree.item, has]
    · rfl
    · exact fun _ h => by cases h

end Rowset.Reading
