import Rowset.Placeholder
import Mathlib.Algebra.Group.Nat.Defs
import Mathlib.Data.List.TakeWhile
import Mathlib.Tactic.SplitIfs

/-!
# Numbering placeholders

A marker is given a name when its statement is bound and a number when its placeholder is brought
into the form of a server: `?` becomes `:param0` and then `$1`. The two steps read the text each in
its own way. The first one looks at no character but the marker, while the second one passes over
quotes and casts and takes the longest name behind a colon. So the second step finds what the first
one has written only where nothing around the marker changes how the placeholder is read.

* `isClear` says where that is: no marker stands in quotes, right behind a colon that is not the
  second of two, or right before a letter, a digit or an underscore, and no name that stands behind
  a colon is that of a parameter.
* `numbered_replaceMarkers`: the text that results has `$1`, `$2`, … in the places of the markers
  and is otherwise unchanged if and only if the text is clear. At the first place where a text is
  not clear, the result differs from that: what should be a number starts with a colon, or the other
  way round, or is another number (`toDigits_succ_append_ne`).
-/

namespace Rowset

/-! ### Decimal numbers -/

section Decimal

theorem ofDigitChars_lt {cs : List Char} (h : ∀ c ∈ cs, c.isDigit = true) :
    Nat.ofDigitChars 10 cs 0 < 10 ^ cs.length := by
  induction cs with
  | nil => decide
  | cons c cs ih =>
    have hc := h c List.mem_cons_self
    have ih := ih fun d hd => h d (List.mem_cons_of_mem c hd)
    have hv : c.toNat - '0'.toNat ≤ 9 := by
      simp only [Char.isDigit, Bool.and_eq_true, decide_eq_true_eq, UInt32.le_iff_toNat_le] at hc
      have h9 : c.toNat ≤ 57 := hc.2
      have h0 : '0'.toNat = 48 := rfl
      omega
    rw [Nat.ofDigitChars_cons, Nat.ofDigitChars_eq_ofDigitChars_zero, List.length_cons,
      Nat.pow_succ, Nat.mul_zero, Nat.zero_add]
    have hmul := Nat.mul_le_mul_left (10 ^ cs.length) hv
    omega

/-- The number of some digits and then of others. -/
theorem ofDigitChars_append_zero (as bs : List Char) : Nat.ofDigitChars 10 (as ++ bs) 0 =
    10 ^ bs.length * Nat.ofDigitChars 10 as 0 + Nat.ofDigitChars 10 bs 0 := by
  rw [Nat.ofDigitChars_append, Nat.ofDigitChars_eq_ofDigitChars_zero]

/-- A number of several digits does not start with zero. -/
theorem pos_of_toDigits_eq_append {j k : Nat} {more : List Char}
    (h : Nat.toDigits 10 j = Nat.toDigits 10 k ++ more) (hlen : 0 < more.length)
    (hlt : Nat.ofDigitChars 10 more 0 < 10 ^ more.length) : 0 < k := by
  rcases Nat.eq_zero_or_pos k with rfl | hk
  · have hj := congrArg (Nat.ofDigitChars 10 · 0) h
    simp only [ofDigitChars_append_zero, Nat.ofDigitChars_ten_toDigits] at hj
    have hshort := (Nat.length_toDigits_le_iff (n := j) (by decide : 1 < 10) hlen).mpr (by omega)
    have hpos : 0 < (Nat.toDigits 10 0).length := Nat.length_toDigits_pos
    rw [h, List.length_append] at hshort
    omega
  · exact hk

/-- A number with more digits behind it is not the next one with the same digits behind that,
however the text goes on. -/
theorem toDigits_succ_append_ne {j k : Nat} {more : List Char}
    (h : Nat.toDigits 10 j = Nat.toDigits 10 k ++ more) (hne : more ≠ []) (x y : List Char) :
    Nat.toDigits 10 (j + 1) ++ x ≠ Nat.toDigits 10 (k + 1) ++ more ++ y := by
  have hlen : 0 < more.length := List.length_pos_iff.mpr hne
  have hpow : 10 ≤ 10 ^ more.length := Nat.le_self_pow (by omega) 10
  have hlt := ofDigitChars_lt fun c (hc : c ∈ more) =>
    Nat.isDigit_of_mem_toDigits (by decide) (by decide) (h ▸ List.mem_append_right _ hc)
  have hk := pos_of_toDigits_eq_append h hlen hlt
  have hle : 10 ^ more.length ≤ 10 ^ more.length * k := Nat.le_mul_of_pos_right _ hk
  have hj := congrArg (Nat.ofDigitChars 10 · 0) h
  simp only [ofDigitChars_append_zero, Nat.ofDigitChars_ten_toDigits] at hj
  intro heq
  -- one of the two numbers is a start of the other
  rcases List.append_eq_append_iff.mp heq with ⟨z, hz, -⟩ | ⟨z, hz, -⟩
  all_goals
    have hval := congrArg (Nat.ofDigitChars 10 · 0) hz
    simp only [ofDigitChars_append_zero, Nat.ofDigitChars_ten_toDigits, Nat.mul_add,
      Nat.mul_one] at hval
    rcases z with _ | ⟨c, z⟩
    · simp only [List.length_nil, Nat.pow_zero, Nat.one_mul, Nat.ofDigitChars_nil] at hval
      omega
    · have hz10 : 10 ≤ 10 ^ (c :: z).length := Nat.le_self_pow (Nat.succ_ne_zero _) 10
      have hj10 := Nat.mul_le_mul_right j hz10
      have hk10 := Nat.mul_le_mul_right (10 ^ more.length * k) hz10
      have hm10 := Nat.mul_le_mul_right (10 ^ more.length) hz10
      omega

end Decimal

/-! ### Names of parameters -/

namespace Parameters

theorem toList_name (i : Nat) :
    (name i).toList = ['p', 'a', 'r', 'a', 'm'] ++ Nat.toDigits 10 i := by
  have hprefix : "param".toList = ['p', 'a', 'r', 'a', 'm'] := rfl
  rw [name, String.toList_append, Nat.toString_eq_ofList_toDigits, hprefix, String.toList_ofList]

theorem name_inj {i j : Nat} : name i = name j ↔ i = j := by
  constructor
  · intro h
    have hlist := congrArg String.toList h
    rw [toList_name, toList_name] at hlist
    have hnum := congrArg (Nat.ofDigitChars 10 · 0) (List.append_cancel_left hlist)
    simpa [Nat.ofDigitChars_ten_toDigits] using hnum
  · rintro rfl
    rfl

theorem length_entries (ps : Parameters) : ps.entries.length = ps.length := by
  simp [entries, length]

theorem getElem_entries (ps : Parameters) {i : Nat} (h : i < ps.entries.length) :
    ps.entries[i].1 = name i := by
  simp [entries]

/-- **A parameter is found by its name,** and by no other text. -/
theorem position?_eq_some_iff {ps : Parameters} {wanted : String} {i : Nat} :
    ps.position? wanted = some i ↔ i < ps.length ∧ wanted = name i := by
  unfold position?
  rw [List.findIdx?_eq_some_iff_getElem]
  simp only [getElem_entries, beq_iff_eq]
  constructor
  · rintro ⟨hi, hname, -⟩
    rw [length_entries] at hi
    exact ⟨hi, hname.symm⟩
  · rintro ⟨hi, rfl⟩
    refine ⟨by rw [length_entries]; exact hi, rfl, ?_⟩
    intro j hj hname
    rw [name_inj] at hname
    omega

end Parameters

/-! ### Markers replaced -/

namespace Statement

/-- Puts a text in the place of each marker, by the position of the marker. -/
def replaceMarkers (write : Nat → List Char) (position : Nat) : List Char → List Char
  | [] => []
  | c :: cs =>
    if c = '?' then write position ++ replaceMarkers write (position + 1) cs
    else c :: replaceMarkers write position cs

/-- The placeholder of the parameter at a position. -/
def placeholder (position : Nat) : List Char :=
  ':' :: (Parameters.name position).toList

/-- The number of the parameter at a position, as a server counts. -/
def ordinal (position : Nat) : List Char :=
  '$' :: (toString (position + 1)).toList

/-- **The text of a statement with `$1`, `$2`, … in the places of its markers.** -/
def numberedText (s : Statement) : String :=
  String.ofList (replaceMarkers ordinal 0 s.sql.toList)

theorem nameMarkers_eq_replaceMarkers (position : Nat) (cs : List Char) :
    nameMarkers position cs = replaceMarkers placeholder position cs := by
  induction cs generalizing position with
  | nil => rfl
  | cons c cs ih =>
    rw [nameMarkers, replaceMarkers, ih, ih]
    rfl

section Replace
variable {write : Nat → List Char}

theorem replaceMarkers_marker (position : Nat) (cs : List Char) :
    replaceMarkers write position ('?' :: cs) =
      write position ++ replaceMarkers write (position + 1) cs := rfl

theorem replaceMarkers_cons {c : Char} (h : c ≠ '?') (position : Nat) (cs : List Char) :
    replaceMarkers write position (c :: cs) = c :: replaceMarkers write position cs :=
  if_neg h

variable (write) in
theorem replaceMarkers_append_of_notMem {as : List Char} (h : '?' ∉ as) (position : Nat)
    (bs : List Char) :
    replaceMarkers write position (as ++ bs) = as ++ replaceMarkers write position bs := by
  induction as with
  | nil => rfl
  | cons c as ih =>
    rw [List.mem_cons, not_or] at h
    rw [List.cons_append, replaceMarkers_cons (Ne.symm h.1), ih h.2, List.cons_append]

end Replace

end Statement

/-! ### The scanner -/

namespace Placeholder

open Statement (replaceMarkers placeholder ordinal replaceMarkers_marker replaceMarkers_cons
  replaceMarkers_append_of_notMem)

/-- Holds of the names of the first parameters, as many as are given. -/
def isParameterName (count : Nat) (name : List Char) : Bool :=
  (List.range count).any fun i => (Parameters.name i).toList == name

/-- **Holds of the texts whose markers are clear** where there are so many parameters: no marker
stands in quotes, right behind a single colon, or right before a character of a name, and no name
behind a single colon is that of a parameter. -/
def isClear (count : Nat) (cs : List Char) : Bool :=
  match cs with
  | [] => true
  | ':' :: ':' :: cs => isClear count cs
  | c :: cs =>
    if c = '\'' ∨ c = '"' then
      !(splitQuoted c cs).1.contains '?' && isClear count (splitQuoted c cs).2
    else if c = ':' then
      cs.head? != some '?' && !isParameterName count (cs.takeWhile isNameChar) &&
        isClear count (cs.dropWhile isNameChar)
    else if c = '?' then !cs.head?.any isNameChar && isClear count cs
    else isClear count cs
termination_by cs.length
decreasing_by
  · simp only [List.length_cons]
    omega
  · have := length_splitQuoted c cs
    simp only [List.length_cons]
    omega
  · have := (List.dropWhile_sublist isNameChar (l := cs)).length_le
    simp only [List.length_cons]
    omega
  · simp only [List.length_cons]
    omega
  · simp only [List.length_cons]
    omega

theorem isParameterName_iff {ps : Parameters} {name : List Char} :
    isParameterName ps.length name = true ↔ ∃ i, ps.position? (String.ofList name) = some i := by
  unfold isParameterName
  simp only [List.any_eq_true, List.mem_range, beq_iff_eq, Parameters.position?_eq_some_iff]
  constructor
  · rintro ⟨i, hi, rfl⟩
    exact ⟨i, hi, String.ofList_toList⟩
  · rintro ⟨i, hi, hname⟩
    exact ⟨i, hi, by rw [← hname, String.toList_ofList]⟩

theorem resolve_of_not_isParameterName {ps : Parameters} {name : List Char}
    (h : isParameterName ps.length name = false) : resolve ps name = ':' :: name := by
  unfold resolve
  cases hp : ps.position? (String.ofList name) with
  | none => rfl
  | some i =>
    rw [isParameterName_iff.mpr ⟨i, hp⟩] at h
    cases h

theorem resolve_of_position? {ps : Parameters} {name : List Char} {i : Nat}
    (h : ps.position? (String.ofList name) = some i) : resolve ps name = ordinal i := by
  unfold resolve
  rw [h]
  rfl

section Steps
variable (ps : Parameters)

theorem numbered_cast (cs : List Char) :
    numbered ps (':' :: ':' :: cs) = ':' :: ':' :: numbered ps cs := by
  rw [numbered]

theorem numbered_quote {c : Char} (h : c = '\'' ∨ c = '"') (cs : List Char) :
    numbered ps (c :: cs) = c :: (splitQuoted c cs).1 ++ numbered ps (splitQuoted c cs).2 := by
  rw [numbered.eq_def]
  rcases h with rfl | rfl <;> simp

theorem numbered_name {cs : List Char} (h : cs.head? ≠ some ':') :
    numbered ps (':' :: cs) =
      resolve ps (cs.takeWhile isNameChar) ++ numbered ps (cs.dropWhile isNameChar) := by
  rw [numbered.eq_def]
  cases cs with
  | nil => simp
  | cons d cs =>
    have hd : d ≠ ':' := fun he => h (by rw [he]; rfl)
    split
    · next heq => cases heq
    · next heq =>
      cases heq
      exact absurd rfl hd
    · next heq =>
      cases heq
      simp

theorem numbered_other {c : Char} (hq : ¬ (c = '\'' ∨ c = '"')) (hc : c ≠ ':') (cs : List Char) :
    numbered ps (c :: cs) = c :: numbered ps cs := by
  rw [numbered.eq_def]
  split
  · next heq => cases heq
  · next heq =>
    cases heq
    exact absurd rfl hc
  · next heq =>
    cases heq
    rw [if_neg hq, if_neg hc]

end Steps

/-! ### The scanner on replaced markers -/

theorem splitQuoted_append (quote : Char) (cs : List Char) :
    (splitQuoted quote cs).1 ++ (splitQuoted quote cs).2 = cs := by
  induction cs with
  | nil => rfl
  | cons c cs ih =>
    rw [splitQuoted]
    split_ifs
    · rfl
    · exact congrArg (c :: ·) ih

/-- A run in quotes without markers stays as it is. -/
theorem splitQuoted_replaceMarkers (write : Nat → List Char) {quote : Char} (position : Nat) :
    ∀ {cs : List Char}, '?' ∉ (splitQuoted quote cs).1 →
      splitQuoted quote (replaceMarkers write position cs) =
        ((splitQuoted quote cs).1, replaceMarkers write position (splitQuoted quote cs).2)
  | [], _ => rfl
  | c :: cs, h => by
    rw [splitQuoted] at h
    have hc : c ≠ '?' := by
      rintro rfl
      split_ifs at h <;> exact h List.mem_cons_self
    rw [replaceMarkers_cons hc, splitQuoted, splitQuoted]
    split_ifs at h ⊢
    · rfl
    · rw [splitQuoted_replaceMarkers write position fun hm => h (List.mem_cons_of_mem c hm)]

/-- A marker in quotes is not found. -/
theorem splitQuoted_ne_of_mem {quote : Char} (hq : quote ≠ ':') (position : Nat)
    (rest : List Char) : ∀ {cs : List Char}, '?' ∈ (splitQuoted quote cs).1 →
      (splitQuoted quote (replaceMarkers placeholder position cs)).1 ++ rest ≠
        replaceMarkers ordinal position cs
  | c :: cs, h => by
    by_cases hc : c = '?'
    · subst hc
      rw [replaceMarkers_marker, replaceMarkers_marker, placeholder, List.cons_append, splitQuoted,
        if_neg (Ne.symm hq), ordinal]
      intro heq
      have hhead := (List.cons.inj heq).1
      revert hhead
      decide
    · rw [replaceMarkers_cons hc, replaceMarkers_cons hc, splitQuoted]
      rw [splitQuoted] at h
      split_ifs at h ⊢
      · rcases List.mem_cons.mp h with h | h
        · exact absurd h.symm hc
        · cases h
      · intro heq
        refine splitQuoted_ne_of_mem hq position rest ?_ (List.cons.inj heq).2
        exact (List.mem_cons.mp h).resolve_left (Ne.symm hc)

theorem takeWhile_replaceMarkers (position : Nat) : ∀ cs : List Char,
    (replaceMarkers placeholder position cs).takeWhile isNameChar = cs.takeWhile isNameChar
  | [] => rfl
  | c :: cs => by
    by_cases hc : c = '?'
    · subst hc
      rfl
    · rw [replaceMarkers_cons hc, List.takeWhile_cons, List.takeWhile_cons,
        takeWhile_replaceMarkers position cs]

theorem dropWhile_replaceMarkers (position : Nat) : ∀ cs : List Char,
    (replaceMarkers placeholder position cs).dropWhile isNameChar =
      replaceMarkers placeholder position (cs.dropWhile isNameChar)
  | [] => rfl
  | c :: cs => by
    by_cases hc : c = '?'
    · subst hc
      rfl
    · rw [replaceMarkers_cons hc, List.dropWhile_cons, List.dropWhile_cons]
      split_ifs
      · exact dropWhile_replaceMarkers position cs
      · rw [replaceMarkers_cons hc]

theorem head?_replaceMarkers {position : Nat} {cs : List Char} (hcolon : cs.head? ≠ some ':')
    (hmarker : cs.head? ≠ some '?') :
    (replaceMarkers placeholder position cs).head? ≠ some ':' := by
  cases cs with
  | nil => exact hcolon
  | cons c cs =>
    have hc : c ≠ '?' := fun he => hmarker (by rw [he]; rfl)
    rw [replaceMarkers_cons hc]
    exact hcolon

theorem notMem_takeWhile (cs : List Char) : '?' ∉ cs.takeWhile isNameChar := by
  intro h
  have hname := List.mem_takeWhile_imp h
  revert hname
  decide

/-- The name behind a colon stays as it is. -/
theorem replaceMarkers_name (write : Nat → List Char) (position : Nat) (cs : List Char) :
    replaceMarkers write position cs = cs.takeWhile isNameChar ++
      replaceMarkers write position (cs.dropWhile isNameChar) := by
  have hsplit := replaceMarkers_append_of_notMem write (notMem_takeWhile cs) position
    (cs.dropWhile isNameChar)
  rwa [List.takeWhile_append_dropWhile] at hsplit

theorem isNameChar_of_mem_name {i : Nat} {c : Char} (h : c ∈ (Parameters.name i).toList) :
    isNameChar c = true := by
  rw [Parameters.toList_name] at h
  rcases List.mem_append.mp h with h | h
  · have hletters : ['p', 'a', 'r', 'a', 'm'].all isNameChar = true := by decide
    exact List.all_eq_true.mp hletters c h
  · have hd := Nat.isDigit_of_mem_toDigits (by decide) (by decide) h
    simp [isNameChar, Char.isAlphanum, hd]

section Marker
variable {ps : Parameters} {position : Nat}

/-- Behind the name of a marker the scanner reads on as long as there are characters of a name. -/
theorem numbered_marker (cs : List Char) :
    numbered ps (replaceMarkers placeholder position ('?' :: cs)) =
      resolve ps ((Parameters.name position).toList ++ cs.takeWhile isNameChar) ++
        numbered ps (replaceMarkers placeholder (position + 1) (cs.dropWhile isNameChar)) := by
  have hall : ∀ c ∈ (Parameters.name position).toList, isNameChar c = true :=
    fun c hc => isNameChar_of_mem_name hc
  have hhead : ((Parameters.name position).toList ++
      replaceMarkers placeholder (position + 1) cs).head? ≠ some ':' := by
    simp [Parameters.toList_name]
  rw [replaceMarkers_marker, placeholder, List.cons_append, numbered_name ps hhead,
    List.takeWhile_append_of_pos hall, List.dropWhile_append_of_pos hall,
    takeWhile_replaceMarkers, dropWhile_replaceMarkers]

variable (ps position) in
/-- A marker that runs on into a name is not given its number. -/
theorem resolve_append_ne {more : List Char} (hne : more ≠ []) (x y : List Char) :
    resolve ps ((Parameters.name position).toList ++ more) ++ x ≠
      ordinal position ++ (more ++ y) := by
  cases hp : ps.position? (String.ofList ((Parameters.name position).toList ++ more)) with
  | none =>
    unfold resolve
    rw [hp]
    intro heq
    have hhead := (List.cons.inj heq).1
    revert hhead
    decide
  | some j =>
    have hname := congrArg String.toList (Parameters.position?_eq_some_iff.mp hp).2
    rw [String.toList_ofList, Parameters.toList_name, Parameters.toList_name,
      List.append_assoc] at hname
    have hdigits := (List.append_cancel_left hname).symm
    rw [resolve_of_position? hp, ordinal, ordinal, Nat.toString_eq_ofList_toDigits,
      Nat.toString_eq_ofList_toDigits, String.toList_ofList, String.toList_ofList]
    intro heq
    refine toDigits_succ_append_ne hdigits hne x y ?_
    rw [List.append_assoc]
    exact (List.cons.inj heq).2

/-! One step of the scanner: what has to hold here, and the same again for the rest. -/

theorem numbered_quote_iff {c : Char} (hq : c = '\'' ∨ c = '"') (cs : List Char) :
    numbered ps (replaceMarkers placeholder position (c :: cs)) =
        replaceMarkers ordinal position (c :: cs) ↔
      '?' ∉ (splitQuoted c cs).1 ∧
        numbered ps (replaceMarkers placeholder position (splitQuoted c cs).2) =
          replaceMarkers ordinal position (splitQuoted c cs).2 := by
  have hmarker : c ≠ '?' := by rcases hq with rfl | rfl <;> decide
  have hcolon : c ≠ ':' := by rcases hq with rfl | rfl <;> decide
  rw [replaceMarkers_cons hmarker, replaceMarkers_cons hmarker, numbered_quote ps hq,
    List.cons_append, List.cons.injEq]
  by_cases hmem : '?' ∈ (splitQuoted c cs).1
  · have hne := splitQuoted_ne_of_mem hcolon position
      (numbered ps (splitQuoted c (replaceMarkers placeholder position cs)).2) hmem
    simp [hmem, hne]
  · have hrest := replaceMarkers_append_of_notMem ordinal hmem position
      (splitQuoted c cs).2
    rw [splitQuoted_append] at hrest
    rw [splitQuoted_replaceMarkers placeholder position hmem, hrest, List.append_cancel_left_eq]
    simp [hmem]

theorem numbered_name_iff {cs : List Char} (hcast : cs.head? ≠ some ':') :
    numbered ps (replaceMarkers placeholder position (':' :: cs)) =
        replaceMarkers ordinal position (':' :: cs) ↔
      cs.head? ≠ some '?' ∧ isParameterName ps.length (cs.takeWhile isNameChar) = false ∧
        numbered ps (replaceMarkers placeholder position (cs.dropWhile isNameChar)) =
          replaceMarkers ordinal position (cs.dropWhile isNameChar) := by
  have hcolon : ':' ≠ '?' := by decide
  rw [replaceMarkers_cons hcolon, replaceMarkers_cons hcolon]
  by_cases hmarker : cs.head? = some '?'
  · -- the colon and that of the placeholder are read as a cast
    obtain ⟨ds, rfl⟩ := List.head?_eq_some_iff.mp hmarker
    have hne : ':' ≠ '$' := by decide
    simp [replaceMarkers_marker, placeholder, ordinal, numbered_cast, hne]
  rw [numbered_name ps (head?_replaceMarkers hcast hmarker), takeWhile_replaceMarkers,
    dropWhile_replaceMarkers, replaceMarkers_name ordinal position cs]
  cases hname : isParameterName ps.length (cs.takeWhile isNameChar) with
  | true =>
    obtain ⟨i, hi⟩ := isParameterName_iff.mp hname
    have hne : '$' ≠ ':' := by decide
    simp [resolve_of_position? hi, ordinal, hne]
  | false =>
    rw [resolve_of_not_isParameterName hname, List.cons_append, List.cons.injEq,
      List.append_cancel_left_eq]
    simp [hmarker]

theorem numbered_marker_iff (h : position < ps.length) (cs : List Char) :
    numbered ps (replaceMarkers placeholder position ('?' :: cs)) =
        replaceMarkers ordinal position ('?' :: cs) ↔
      cs.head?.any isNameChar = false ∧
        numbered ps (replaceMarkers placeholder (position + 1) cs) =
          replaceMarkers ordinal (position + 1) cs := by
  rw [numbered_marker]
  by_cases hmore : cs.takeWhile isNameChar = []
  · have hhead : cs.head?.any isNameChar = false := by
      cases cs with
      | nil => rfl
      | cons c cs => simpa [List.takeWhile_cons] using hmore
    have hfound : ps.position? (String.ofList (Parameters.name position).toList) = some position :=
      Parameters.position?_eq_some_iff.mpr ⟨h, String.ofList_toList⟩
    have hdrop : cs.dropWhile isNameChar = cs := by
      have hsplit := List.takeWhile_append_dropWhile (p := isNameChar) (l := cs)
      rwa [hmore] at hsplit
    rw [hmore, List.append_nil, resolve_of_position? hfound, hdrop, replaceMarkers_marker,
      List.append_cancel_left_eq]
    simp [hhead]
  · have hhead : cs.head?.any isNameChar = true := by
      cases cs with
      | nil => exact absurd rfl hmore
      | cons c cs => simpa [List.takeWhile_cons] using hmore
    have hne := resolve_append_ne ps position hmore
      (numbered ps (replaceMarkers placeholder (position + 1) (cs.dropWhile isNameChar)))
      (replaceMarkers ordinal (position + 1) (cs.dropWhile isNameChar))
    rw [replaceMarkers_marker, replaceMarkers_name ordinal (position + 1) cs]
    simp [hhead, hne]

end Marker

/-- **The markers get their numbers, and nothing else changes, exactly in a clear text.** -/
theorem numbered_replaceMarkers {ps : Parameters} {cs : List Char} {position : Nat}
    (h : position + cs.count '?' ≤ ps.length) :
    numbered ps (replaceMarkers placeholder position cs) = replaceMarkers ordinal position cs ↔
      isClear ps.length cs = true := by
  fun_induction isClear ps.length cs generalizing position with
  | case1 => simp [replaceMarkers, numbered]
  | case2 cs ih =>
    have hcolon : ':' ≠ '?' := by decide
    rw [List.count_cons_of_ne hcolon, List.count_cons_of_ne hcolon] at h
    simp only [replaceMarkers_cons hcolon, numbered_cast, List.cons.injEq, true_and]
    exact ih h
  | case3 c cs hcast hq ih =>
    have hle := List.Sublist.count_le '?'
      (List.sublist_append_right (splitQuoted c cs).1 (splitQuoted c cs).2)
    rw [splitQuoted_append] at hle
    have hcons := List.count_le_count_cons (a := '?') (b := c) (l := cs)
    rw [numbered_quote_iff hq, ih (by omega)]
    simp
  | case4 cs hcast hq ih =>
    have hle := List.Sublist.count_le '?' (List.dropWhile_sublist isNameChar (l := cs))
    have hcons := List.count_le_count_cons (a := '?') (b := ':') (l := cs)
    have hhead : cs.head? ≠ some ':' := by
      intro heq
      obtain ⟨ds, rfl⟩ := List.head?_eq_some_iff.mp heq
      exact hcast ds rfl rfl
    rw [numbered_name_iff hhead, ih (by omega)]
    simp [and_assoc]
  | case5 cs hcast hq hc ih =>
    rw [List.count_cons_self] at h
    rw [numbered_marker_iff (by omega), ih (by omega)]
    simp
  | case6 c cs hcast hq hc hm ih =>
    have hm : c ≠ '?' := hm
    rw [List.count_cons_of_ne hm] at h
    rw [replaceMarkers_cons hm, replaceMarkers_cons hm, numbered_other ps hq hc, List.cons.injEq,
      ih h]
    simp

end Placeholder

/-! ### Statements -/

namespace Statement

theorem bind_eq_ok {s : Statement} {bound : Bound} :
    s.bind = .ok bound ↔ s.markerCount = s.bindings.length ∧
      bound = ⟨String.ofList (nameMarkers 0 s.sql.toList), ⟨s.bindings⟩⟩ := by
  unfold bind
  split_ifs with h
  · simp [h, eq_comm]
  · simp [h]

theorem toPositional_named (s : Statement) (h : s.markerCount ≤ s.bindings.length) :
    toPositional ⟨s.bindings⟩ (String.ofList (nameMarkers 0 s.sql.toList)) = s.numberedText ↔
      Placeholder.isClear s.bindings.length s.sql.toList = true := by
  have hcount : 0 + s.sql.toList.count '?' ≤ (Parameters.mk s.bindings).length := by
    rw [Nat.zero_add]
    exact h
  rw [toPositional, numberedText, String.ofList_inj, String.toList_ofList,
    nameMarkers_eq_replaceMarkers, Placeholder.numbered_replaceMarkers hcount]
  rfl

/-- **Binding and numbering together put `$1`, `$2`, … in the places of the markers,** and leave
every other character as it is, exactly where the markers of the text are clear. -/
theorem toPositional_bind_iff {s : Statement} {bound : Bound} (h : s.bind = .ok bound) :
    toPositional bound.params bound.sql = s.numberedText ↔
      Placeholder.isClear s.bindings.length s.sql.toList = true := by
  obtain ⟨hcount, rfl⟩ := bind_eq_ok.mp h
  exact toPositional_named s (Nat.le_of_eq hcount)

/-- Markers beside each other, behind a cast and behind the name of another placeholder, and the
name of a parameter in quotes and behind a cast. -/
def crowdedStatement : Statement :=
  ⟨"\"a:param0\"::param0 = ?? AND ':param1' = ::?::text OR b = :param?",
    [.null, .null, .null, .null]⟩

theorem toPositional_bind_crowdedStatement :
    ∃ bound, crowdedStatement.bind = .ok bound ∧
      Placeholder.isClear crowdedStatement.bindings.length crowdedStatement.sql.toList = true ∧
      toPositional bound.params bound.sql = crowdedStatement.numberedText ∧
      crowdedStatement.numberedText =
        "\"a:param0\"::param0 = $1$2 AND ':param1' = ::$3::text OR b = :param$4" := by
  have hbind : crowdedStatement.bind = .ok _ := bind_eq_ok.mpr ⟨by decide +kernel, rfl⟩
  have hclear : Placeholder.isClear crowdedStatement.bindings.length crowdedStatement.sql.toList =
      true := by decide +kernel
  exact ⟨_, hbind, hclear, (toPositional_bind_iff hbind).mpr hclear, by decide +kernel⟩

/-- The end of a slice, with a marker behind its colon. -/
def sliceStatement : Statement :=
  ⟨"a[1:?] = b", [.bool true]⟩

/-- The colon and that of the placeholder are taken for a cast, and the marker is not numbered. -/
theorem toPositional_bind_sliceStatement :
    '\'' ∉ sliceStatement.sql.toList ∧ '"' ∉ sliceStatement.sql.toList ∧
      sliceStatement.numberedText = "a[1:$1] = b" ∧
      ∃ bound, sliceStatement.bind = .ok bound ∧
        toPositional bound.params bound.sql = "a[1::param0] = b" := by
  have hbind : sliceStatement.bind = .ok _ := bind_eq_ok.mpr ⟨by decide +kernel, rfl⟩
  exact ⟨by decide, by decide, by decide +kernel, _, hbind, by decide +kernel⟩

end Statement

end Rowset
