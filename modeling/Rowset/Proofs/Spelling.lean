import Rowset.Proofs.Filling
import Mathlib.Data.List.Basic

/-!
# The spelling of names

A name is spelled in one or more parts with dots between them. `Name.Spelling` is the grammar: a
part is bare, or it stands in double quotes and every quote in it is doubled. Each spelling is of
one list of parts, and a part may have two spellings.

Reading accepts the grammar and nothing else (`splitParts_eq_ok_iff`), apart from the two characters
that no name holds. What is written is the spelling with every part in quotes
(`Name.spelling_quoted`), so reading undoes writing.
-/

namespace Rowset.Name

/-! ### The grammar -/

/-- Holds of the letters from `a` to `z` in either case. -/
def Letter (c : Char) : Prop :=
  'a' ≤ c ∧ c ≤ 'z' ∨ 'A' ≤ c ∧ c ≤ 'Z'

/-- Holds of the digits from `0` to `9`. -/
def Digit (c : Char) : Prop :=
  '0' ≤ c ∧ c ≤ '9'

/-- A text in which every quote is doubled, and what it stands for. -/
inductive Doubled : List Char → List Char → Prop where
  | nil : Doubled [] []
  | quote {text part : List Char} (h : Doubled text part) :
      Doubled ('"' :: '"' :: text) ('"' :: part)
  | other {c : Char} {text part : List Char} (hc : c ≠ '"') (h : Doubled text part) :
      Doubled (c :: text) (c :: part)

/-- **The spellings of a part.** -/
inductive PartSpelling : List Char → List Char → Prop where
  /-- A bare part starts with a letter or `_` and goes on with letters, digits, `_` and `$`. -/
  | bare {c : Char} {cs : List Char} (hc : Letter c ∨ c = '_')
      (hcs : ∀ d ∈ cs, Letter d ∨ Digit d ∨ d = '_' ∨ d = '$') :
      PartSpelling (c :: cs) (c :: cs)
  /-- Any part that is not empty can stand in quotes. -/
  | quoted {text part : List Char} (h : Doubled text part) (hne : part ≠ []) :
      PartSpelling ('"' :: text ++ ['"']) part

/-- **The spellings of a name:** those of its parts, with dots between them. -/
inductive Spelling : List Char → List (List Char) → Prop where
  | last {text part : List Char} (h : PartSpelling text part) : Spelling text [part]
  | cons {text part rest : List Char} {parts : List (List Char)} (h : PartSpelling text part)
      (hs : Spelling rest parts) : Spelling (text ++ '.' :: rest) (part :: parts)

theorem PartSpelling.ne_nil {text part : List Char} (h : PartSpelling text part) : text ≠ [] := by
  cases h with
  | bare => exact List.cons_ne_nil _ _
  | quoted => exact List.cons_ne_nil _ _

theorem Spelling.ne_nil {text : List Char} {parts : List (List Char)} (h : Spelling text parts) :
    text ≠ [] := by
  cases h with
  | last h => exact h.ne_nil
  | cons h => exact List.append_ne_nil_of_left_ne_nil h.ne_nil _

/-! ### Bare parts -/

theorem isAlpha_iff {c : Char} : c.isAlpha = true ↔ Letter c := by
  have hlower : c.isLower = true ↔ 'a' ≤ c ∧ c ≤ 'z' := by
    show (decide ('a' ≤ c) && decide (c ≤ 'z')) = true ↔ _
    rw [Bool.and_eq_true, decide_eq_true_iff, decide_eq_true_iff]
  have hupper : c.isUpper = true ↔ 'A' ≤ c ∧ c ≤ 'Z' := decide_eq_true_iff
  show (c.isUpper || c.isLower) = true ↔ _
  rw [Bool.or_eq_true, hlower, hupper, or_comm, Letter]

theorem isDigit_iff {c : Char} : c.isDigit = true ↔ Digit c := by
  simp [Char.isDigit, Digit, Char.le_def]

theorem isLeading_iff {c : Char} : isLeading c = true ↔ Letter c ∨ c = '_' := by
  simp [isLeading, isAlpha_iff, or_comm]

theorem isFollowing_iff {c : Char} :
    isFollowing c = true ↔ Letter c ∨ Digit c ∨ c = '_' ∨ c = '$' := by
  simp only [isFollowing, Char.isAlphanum, Bool.or_eq_true, beq_iff_eq, isAlpha_iff, isDigit_iff]
  rw [or_comm, or_assoc]

theorem firstInvalid?_eq_none_iff {c : Char} {cs : List Char} :
    firstInvalid? (c :: cs) = none ↔ isLeading c = true ∧ ∀ d ∈ cs, isFollowing d = true := by
  rw [firstInvalid?]
  split_ifs with hc
  · simp [hc]
  · simp [hc]

theorem ne_of_isLeading {c : Char} (h : isLeading c = true) : c ≠ '.' ∧ c ≠ '"' := by
  constructor <;> rintro rfl <;> exact absurd h (by decide)

theorem ne_of_isFollowing {c : Char} (h : isFollowing c = true) : c ≠ '.' := by
  rintro rfl
  exact absurd h (by decide)

/-! ### Quoted parts -/

/-- The text of a quoted part ends at the first quote that is not followed by another. -/
theorem doubled_of_takeQuoted? {cs part rest : List Char}
    (h : takeQuoted? cs = some (part, rest)) :
    ∃ text, Doubled text part ∧ cs = text ++ '"' :: rest := by
  fun_induction takeQuoted? cs generalizing part with
  | case1 => cases h
  | case2 cs ih =>
    obtain ⟨⟨p, r⟩, hp, heq⟩ := Option.map_eq_some_iff.mp h
    cases heq
    obtain ⟨text, htext, rfl⟩ := ih hp
    exact ⟨_, .quote htext, rfl⟩
  | case3 cs _ =>
    cases h
    exact ⟨[], .nil, rfl⟩
  | case4 c cs _ hc ih =>
    obtain ⟨⟨p, r⟩, hp, heq⟩ := Option.map_eq_some_iff.mp h
    cases heq
    obtain ⟨text, htext, rfl⟩ := ih hp
    exact ⟨_, .other hc htext, rfl⟩

theorem takeQuoted?_of_doubled {text part rest : List Char} (h : Doubled text part)
    (hrest : rest.head? ≠ some '"') : takeQuoted? (text ++ '"' :: rest) = some (part, rest) := by
  induction h with
  | nil =>
    cases rest with
    | nil => rfl
    | cons c rest =>
      have hc : c ≠ '"' := fun heq => hrest (congrArg some heq)
      rw [List.nil_append, takeQuoted?]
      intro ds heq
      exact hc (List.cons.inj heq).1
  | quote _ ih =>
    rw [List.cons_append, List.cons_append, takeQuoted?, ih]
    rfl
  | other hc _ ih =>
    rw [List.cons_append, takeQuoted?, ih]
    · rfl
    · exact fun _ heq _ => hc heq
    · exact hc

/-! ### Reading -/

theorem partSpelling_of_takePart {whole : String} {cs part rest : List Char}
    (h : takePart whole cs = .ok (part, rest)) :
    ∃ text, PartSpelling text part ∧ cs = text ++ rest := by
  unfold takePart at h
  split at h
  · split at h
    · cases h
    · cases h
    · next hq =>
      cases h
      obtain ⟨text, htext, rfl⟩ := doubled_of_takeQuoted? hq
      exact ⟨_, .quoted htext (List.cons_ne_nil _ _), by simp⟩
  · split at h
    · cases h
    · cases h
    · next hvalid htake =>
      cases h
      rw [htake] at hvalid
      obtain ⟨hc, hcs⟩ := firstInvalid?_eq_none_iff.mp hvalid
      refine ⟨_, .bare (isLeading_iff.mp hc) fun d hd => isFollowing_iff.mp (hcs d hd), ?_⟩
      rw [← htake, List.takeWhile_append_dropWhile]

/-- A part is taken up to the end of the text or to the dot behind it. -/
theorem takePart_of_partSpelling (whole : String) {text part : List Char}
    (h : PartSpelling text part) (rest : List Char) (hrest : ∀ d ∈ rest.head?, d = '.') :
    takePart whole (text ++ rest) = .ok (part, rest) := by
  cases h with
  | @bare c cs hc hcs =>
    have hc := isLeading_iff.mpr hc
    have hcs := fun d hd => isFollowing_iff.mpr (hcs d hd)
    have hall : ∀ d ∈ c :: cs, (d != '.') = true := by
      intro d hd
      rw [bne_iff_ne]
      rcases List.mem_cons.mp hd with rfl | hd
      · exact (ne_of_isLeading hc).1
      · exact ne_of_isFollowing (hcs d hd)
    have hstop : rest.takeWhile (· != '.') = [] ∧ rest.dropWhile (· != '.') = rest := by
      cases rest with
      | nil => exact ⟨rfl, rfl⟩
      | cons d rest =>
        cases hrest d rfl
        exact ⟨rfl, rfl⟩
    have htake : (c :: cs ++ rest).takeWhile (· != '.') = c :: cs := by
      rw [List.takeWhile_append_of_pos hall, hstop.1, List.append_nil]
    have hdrop : (c :: cs ++ rest).dropWhile (· != '.') = rest := by
      rw [List.dropWhile_append_of_pos hall, hstop.2]
    unfold takePart
    split
    · next heq => exact absurd (List.cons.inj heq).1 (ne_of_isLeading hc).2
    · rw [htake, hdrop, firstInvalid?_eq_none_iff.mpr ⟨hc, hcs⟩]
  | quoted h hne =>
    have hquote : rest.head? ≠ some '"' := by
      intro heq
      exact absurd (hrest _ heq) (by decide)
    rw [List.cons_append, List.cons_append, List.append_assoc, List.singleton_append, takePart,
      takeQuoted?_of_doubled h hquote]
    cases part with
    | nil => exact absurd rfl hne
    | cons c part => rfl

/-- **Splitting accepts the grammar and nothing else,** and gives the parts that are spelled. -/
theorem splitParts_eq_ok_iff {whole : String} {cs : List Char} {parts : List (List Char)} :
    splitParts whole cs = .ok parts ↔ Spelling cs parts := by
  constructor
  · intro h
    fun_induction splitParts whole cs generalizing parts with
    | case1 => cases h
    | case2 cs part hp =>
      cases h
      obtain ⟨text, htext, rfl⟩ := partSpelling_of_takePart hp
      rw [List.append_nil]
      exact .last htext
    | case3 => cases h
    | case4 => cases h
    | case5 cs part rest _ more hr hp _ ih =>
      cases h
      obtain ⟨text, htext, rfl⟩ := partSpelling_of_takePart hp
      exact .cons htext (ih hr)
    | case6 => cases h
  · intro h
    induction h with
    | last h =>
      have htake := takePart_of_partSpelling whole h [] (by simp)
      rw [List.append_nil] at htake
      rw [splitParts.eq_def]
      split
      · next heq => cases htake.symm.trans heq
      · next heq =>
        cases htake.symm.trans heq
        rfl
    | @cons text part rest parts h hs ih =>
      have htake := takePart_of_partSpelling whole h ('.' :: rest) (by simp)
      rw [splitParts.eq_def]
      split
      · next heq => cases htake.symm.trans heq
      · next heq =>
        cases htake.symm.trans heq
        dsimp only
        rw [if_pos rfl, if_neg hs.ne_nil, ih]

theorem read_eq_ok_iff {text : String} {name : Name} :
    read text = .ok name ↔ '\x00' ∉ text.toList ∧ '?' ∉ text.toList ∧
      Spelling text.toList (name.parts.map String.toList) := by
  unfold read
  split_ifs with hempty hnul hmarker
  · subst hempty
    simp only [false_iff, not_and]
    exact fun _ _ h => h.ne_nil rfl
  · simp [hnul]
  · simp [hmarker]
  · have hsplit := @splitParts_eq_ok_iff text text.toList (name.parts.map String.toList)
    rw [← hsplit]
    split
    · next problem h => simp [h]
    · next parts h =>
      constructor
      · intro heq
        cases heq
        refine ⟨hnul, hmarker, ?_⟩
        simp only [h, List.map_map, Function.comp_def, String.toList_ofList, List.map_id']
      · rintro ⟨-, -, heq⟩
        cases h.symm.trans heq
        cases name with
        | mk parts hne hproper =>
          simp only [List.map_map, Function.comp_def, String.ofList_toList, List.map_id']

/-! ### Writing -/

theorem doubled_flatMap (part : List Char) :
    Doubled (part.flatMap fun c => if c = '"' then ['"', '"'] else [c]) part := by
  induction part with
  | nil => exact .nil
  | cons c part ih =>
    rw [List.flatMap_cons]
    split_ifs with hc
    · subst hc
      exact .quote ih
    · exact .other hc ih

theorem partSpelling_quotePart {part : String} (h : part ≠ "") :
    PartSpelling (quotePart part).toList part.toList := by
  rw [quotePart, String.toList_ofList]
  exact .quoted (doubled_flatMap part.toList) fun hnil => h (by simpa using hnil)

/-- **A name is written in a spelling of its parts.** -/
theorem spelling_quoted (name : Name) :
    Spelling name.quoted.toList (name.parts.map String.toList) := by
  have hall : ∀ parts : List String, parts ≠ [] → (∀ part ∈ parts, part ≠ "") →
      Spelling (String.intercalate "." (parts.map quotePart)).toList (parts.map String.toList) := by
    intro parts
    induction parts with
    | nil => exact fun hne => absurd rfl hne
    | cons part parts ih =>
      intro _ hproper
      have hpart := partSpelling_quotePart (hproper part List.mem_cons_self)
      cases parts with
      | nil =>
        rw [List.map_singleton, List.map_singleton, String.intercalate_singleton]
        exact .last hpart
      | cons next parts =>
        have hdot : ".".toList = ['.'] := rfl
        rw [List.map_cons, List.map_cons, String.intercalate_cons_cons, String.toList_append,
          String.toList_append, hdot, List.append_assoc, List.singleton_append, ← List.map_cons,
          List.map_cons]
        exact .cons hpart (ih (List.cons_ne_nil _ _) fun p hp =>
          hproper p (List.mem_cons_of_mem _ hp))
  exact hall name.parts name.parts_ne_nil fun part hpart => (name.proper part hpart).1

theorem parse_eq_ok_iff {text : String} {name : Name} :
    parse text = .ok name ↔ '\x00' ∉ text.toList ∧ '?' ∉ text.toList ∧
      Spelling text.toList (name.parts.map String.toList) := by
  rw [← read_eq_ok_iff, parse]
  cases read text with
  | error problem => simp
  | ok n => simp

theorem notMem_nul_quoted (name : Name) : '\x00' ∉ name.quoted.toList :=
  Sql.notMem_quoted_of_parts (by decide) (by decide) fun part hpart => (name.proper part hpart).2.1

/-- Reading undoes writing. -/
theorem parse_quoted (name : Name) : parse name.quoted = .ok name :=
  parse_eq_ok_iff.mpr ⟨notMem_nul_quoted name, Sql.notMem_quoted name, spelling_quoted name⟩

theorem quoted_injective : Function.Injective quoted := by
  intro a b h
  have hparse := parse_quoted a
  rw [h, parse_quoted] at hparse
  exact (Except.ok.inj hparse).symm

/-- A spelling without the two characters that no name holds is that of a name. -/
theorem exists_parse_iff {text : String} :
    (∃ name, parse text = .ok name) ↔ '\x00' ∉ text.toList ∧ '?' ∉ text.toList ∧
      ∃ parts, Spelling text.toList parts := by
  constructor
  · rintro ⟨name, h⟩
    obtain ⟨hnul, hmarker, hspelling⟩ := parse_eq_ok_iff.mp h
    exact ⟨hnul, hmarker, _, hspelling⟩
  · rintro ⟨hnul, hmarker, parts, hspelling⟩
    have hne : text ≠ "" := fun h => hspelling.ne_nil (by rw [h]; rfl)
    cases hread : read text with
    | ok name => exact ⟨name, by rw [parse, hread]⟩
    | error problem =>
      unfold read at hread
      rw [if_neg hne, dif_neg hnul, dif_neg hmarker] at hread
      split at hread
      · next h => cases h.symm.trans (splitParts_eq_ok_iff.mpr hspelling)
      · cases hread

/-- **Reading accepts exactly the grammar, and writing undoes it.** -/
theorem parse_spelling :
    (∀ text, (∃ name, parse text = .ok name) ↔
      '\x00' ∉ text.toList ∧ '?' ∉ text.toList ∧ ∃ parts, Spelling text.toList parts) ∧
    (∀ text name, parse text = .ok name ↔
      '\x00' ∉ text.toList ∧ '?' ∉ text.toList ∧
        Spelling text.toList (name.parts.map String.toList)) ∧
    (∀ name : Name, parse name.quoted = .ok name ∧
      '\x00' ∉ name.quoted.toList ∧ '?' ∉ name.quoted.toList) ∧
    Function.Injective quoted :=
  ⟨fun _ => exists_parse_iff, fun _ _ => parse_eq_ok_iff,
    fun name => ⟨parse_quoted name, notMem_nul_quoted name, Sql.notMem_quoted name⟩,
    quoted_injective⟩

/-- A bare part with every kind of character, and a quoted one with a dot and a quote inside. -/
def mixedSpelling : String :=
  "_a$1.\"x.\"\"y\""

/-- The name with that spelling. -/
def mixedName : Name :=
  ⟨["_a$1", "x.\"y"], by simp, by simp [ProperPart]⟩

theorem parse_spelling_mixedSpelling :
    parse mixedSpelling = .ok mixedName ∧
      Spelling mixedSpelling.toList [['_', 'a', '$', '1'], ['x', '.', '"', 'y']] ∧
      mixedName.quoted = "\"_a$1\".\"x.\"\"y\"" ∧ parse mixedName.quoted = .ok mixedName ∧
      ¬ ∃ parts, Spelling "a.\"b\"c".toList parts := by
  obtain ⟨hok, hparse, hquoted, -⟩ := parse_spelling
  have hread : parse mixedSpelling = .ok mixedName := by decide +kernel
  have hspelling := ((hparse mixedSpelling mixedName).mp hread).2.2
  refine ⟨hread, hspelling, by decide +kernel, (hquoted mixedName).1, fun hparts => ?_⟩
  obtain ⟨name, hname⟩ := (hok "a.\"b\"c").mpr ⟨by decide, by decide, hparts⟩
  have herror : parse "a.\"b\"c" = .error (.validation
      "Expected '.' between identifier parts in 'a.\"b\"c', got 'c'") := by decide +kernel
  cases herror.symm.trans hname

end Rowset.Name
