import Rowset.Proofs.Naming
import Rowset.Proofs.Offsets

/-!
# What the scanner changes

The scanner gives numbers to the placeholders of the parameters and changes nothing else.
`Rewrites` says so piece by piece: quotes, casts, names of no parameter and all other characters are
copied, and what is written for a known name is its number. Every text is rewritten in this way to
one text and no other, which is what the scanner returns (`rewrites_iff`).

* What is written keeps the pieces before it as they were read: it starts with the same character or
  with a dollar sign (`Rewrites.head?_eq`), so no colon and no name runs on into it. A text that was
  rewritten is therefore left alone the second time (`Rewrites.again`).
* A name can also be cut out of the text by its offsets. `scan?` does that, character by character
  with their offsets, and never asks for a slice that there is not (`scan?_charIndices`).
-/

namespace Rowset

/-! ### Parameters by their names -/

namespace Parameters

variable {ps : Parameters} {wanted : String}

theorem position?_eq_some_iff_entry {i : Nat} :
    ps.position? wanted = some i ↔ ∃ value, ps.entries[i]? = some (wanted, value) := by
  rw [position?_eq_some_iff, getElem?_entries]
  constructor
  · rintro ⟨hi, rfl⟩
    exact ⟨ps.values[i], by rw [List.getElem?_eq_getElem hi]; rfl⟩
  · rintro ⟨value, h⟩
    obtain ⟨v, hv, heq⟩ := Option.map_eq_some_iff.mp h
    exact ⟨(List.getElem?_eq_some_iff.mp hv).1, (congrArg Prod.fst heq).symm⟩

theorem position?_eq_none_iff_entry :
    ps.position? wanted = none ↔ ∀ entry ∈ ps.entries, entry.1 ≠ wanted := by
  constructor
  · rintro h ⟨name, value⟩ hentry rfl
    obtain ⟨i, hi⟩ := List.getElem?_of_mem hentry
    have hfound := position?_eq_some_iff_entry.mpr ⟨value, hi⟩
    rw [h] at hfound
    cases hfound
  · intro h
    cases hp : ps.position? wanted with
    | none => rfl
    | some i =>
      obtain ⟨value, hvalue⟩ := position?_eq_some_iff_entry.mp hp
      exact absurd rfl (h _ (List.mem_of_getElem? hvalue))

theorem ne_nil_of_entry {name : List Char} {i : Nat} {value : Value}
    (h : ps.entries[i]? = some (String.ofList name, value)) : name ≠ [] := by
  rintro rfl
  have hname := (position?_eq_some_iff.mp (position?_eq_some_iff_entry.mpr ⟨value, h⟩)).2
  have hlist := congrArg String.toList hname
  rw [String.toList_ofList, toList_name] at hlist
  cases hlist

end Parameters

namespace Placeholder

open Statement (ordinal)
open Text (byteCount byteCount_append byteCount_cons byteCount_nil slice? slice?_middle)

/-- Holds of a name that does not run on into what stands behind it. -/
def IsWholeName (name rest : List Char) : Prop :=
  (∀ c ∈ name, isNameChar c = true) ∧ rest.head?.any isNameChar = false

/-- **What may become of a text** when the placeholders of the parameters are numbered. -/
inductive Rewrites (ps : Parameters) : List Char → List Char → Prop
  | nil : Rewrites ps [] []
  /-- What stands in quotes is copied. -/
  | quoted {quote : Char} {body rest out : List Char} (hquote : quote = '\'' ∨ quote = '"')
      (hbody : quote ∉ body) (h : Rewrites ps rest out) :
      Rewrites ps (quote :: (body ++ quote :: rest)) (quote :: (body ++ quote :: out))
  /-- Where quotes are not closed, they extend to the end. -/
  | unclosed {quote : Char} {body : List Char} (hquote : quote = '\'' ∨ quote = '"')
      (hbody : quote ∉ body) : Rewrites ps (quote :: body) (quote :: body)
  | cast {rest out : List Char} (h : Rewrites ps rest out) :
      Rewrites ps (':' :: ':' :: rest) (':' :: ':' :: out)
  /-- The name of a parameter becomes its number. -/
  | known {name rest out : List Char} {i : Nat} {value : Value} (hname : IsWholeName name rest)
      (hentry : ps.entries[i]? = some (String.ofList name, value)) (h : Rewrites ps rest out) :
      Rewrites ps (':' :: (name ++ rest)) (ordinal i ++ out)
  /-- A name of no parameter is copied, and so is a colon without a name. -/
  | unknown {name rest out : List Char} (hname : IsWholeName name rest)
      (hcast : (name ++ rest).head? ≠ some ':')
      (hentry : ∀ entry ∈ ps.entries, entry.1 ≠ String.ofList name) (h : Rewrites ps rest out) :
      Rewrites ps (':' :: (name ++ rest)) (':' :: (name ++ out))
  | other {c : Char} {rest out : List Char} (hquote : ¬(c = '\'' ∨ c = '"')) (hcolon : c ≠ ':')
      (h : Rewrites ps rest out) : Rewrites ps (c :: rest) (c :: out)

/-! ### Pieces -/

theorem splitQuoted_of_notMem {quote : Char} {body : List Char} (h : quote ∉ body)
    (rest : List Char) :
    splitQuoted quote (body ++ quote :: rest) = (body ++ [quote], rest) := by
  induction body with
  | nil =>
    rw [List.nil_append, splitQuoted, if_pos rfl]
    rfl
  | cons c body ih =>
    rw [List.mem_cons, not_or] at h
    rw [List.cons_append, splitQuoted, if_neg (Ne.symm h.1), ih h.2]
    rfl

theorem splitQuoted_unclosed {quote : Char} {body : List Char} (h : quote ∉ body) :
    splitQuoted quote body = (body, []) := by
  induction body with
  | nil => rfl
  | cons c body ih =>
    rw [List.mem_cons, not_or] at h
    rw [splitQuoted, if_neg (Ne.symm h.1), ih h.2]

theorem head?_ne_of_ne_cons {c : Char} {cs : List Char} (h : ∀ ds, cs ≠ c :: ds) :
    cs.head? ≠ some c := by
  intro heq
  obtain ⟨ds, hds⟩ := List.head?_eq_some_iff.mp heq
  exact h ds hds

section Names
variable {name rest : List Char}

theorem isWholeName_takeWhile (cs : List Char) :
    IsWholeName (cs.takeWhile isNameChar) (cs.dropWhile isNameChar) := by
  refine ⟨fun c hc => List.mem_takeWhile_imp hc, ?_⟩
  have hhead := List.head?_dropWhile_not isNameChar cs
  revert hhead
  cases (cs.dropWhile isNameChar).head? <;> simp

theorem IsWholeName.head?_ne_colon (h : IsWholeName name rest) (hne : name ≠ []) :
    (name ++ rest).head? ≠ some ':' := by
  cases name with
  | nil => exact absurd rfl hne
  | cons c name =>
    have hc := h.1 c List.mem_cons_self
    rintro ⟨⟩
    revert hc
    decide

theorem IsWholeName.takeWhile_append (h : IsWholeName name rest) :
    (name ++ rest).takeWhile isNameChar = name := by
  rw [List.takeWhile_append_of_pos h.1]
  cases rest with
  | nil => simp
  | cons c rest =>
    have hc : isNameChar c = false := h.2
    rw [List.takeWhile_cons_of_neg (by simp [hc]), List.append_nil]

theorem IsWholeName.dropWhile_append (h : IsWholeName name rest) :
    (name ++ rest).dropWhile isNameChar = rest := by
  rw [List.dropWhile_append_of_pos h.1]
  cases rest with
  | nil => rfl
  | cons c rest =>
    have hc : isNameChar c = false := h.2
    rw [List.dropWhile_cons_of_neg (by simp [hc])]

end Names

/-! ### What the scanner returns -/

theorem Rewrites.eq_numbered {ps : Parameters} {cs out : List Char} (h : Rewrites ps cs out) :
    out = numbered ps cs := by
  induction h with
  | nil => rw [numbered]
  | quoted hquote hbody _ ih =>
    rw [numbered_quote ps hquote, splitQuoted_of_notMem hbody, ← ih]
    simp
  | unclosed hquote hbody =>
    rw [numbered_quote ps hquote, splitQuoted_unclosed hbody, numbered, List.append_nil]
  | cast _ ih => rw [numbered_cast, ih]
  | @known name rest out i value hname hentry _ ih =>
    have hfound := Parameters.position?_eq_some_iff_entry.mpr ⟨value, hentry⟩
    have hcast := hname.head?_ne_colon (Parameters.ne_nil_of_entry hentry)
    rw [numbered_name ps hcast, hname.takeWhile_append, hname.dropWhile_append,
      resolve_of_position? hfound, ih]
  | unknown hname hcast hentry _ ih =>
    have hnone := Parameters.position?_eq_none_iff_entry.mpr hentry
    rw [numbered_name ps hcast, hname.takeWhile_append, hname.dropWhile_append, resolve, hnone, ih]
    rfl
  | other hquote hcolon _ ih => rw [numbered_other ps hquote hcolon, ih]

theorem rewrites_quote {ps : Parameters} {quote : Char} {cs out : List Char}
    (hquote : quote = '\'' ∨ quote = '"') (h : Rewrites ps (splitQuoted quote cs).2 out) :
    Rewrites ps (quote :: cs) (quote :: ((splitQuoted quote cs).1 ++ out)) := by
  by_cases hmem : quote ∈ cs
  · obtain ⟨body, rest, rfl, hbody⟩ := List.eq_append_cons_of_mem hmem
    rw [splitQuoted_of_notMem hbody] at h ⊢
    rw [List.append_assoc]
    exact .quoted hquote hbody h
  · rw [splitQuoted_unclosed hmem] at h ⊢
    cases h
    rw [List.append_nil]
    exact .unclosed hquote hmem

theorem rewrites_name {ps : Parameters} {cs out : List Char} (hcast : cs.head? ≠ some ':')
    (h : Rewrites ps (cs.dropWhile isNameChar) out) :
    Rewrites ps (':' :: cs) (resolve ps (cs.takeWhile isNameChar) ++ out) := by
  have hname := isWholeName_takeWhile cs
  have hsplit : cs.takeWhile isNameChar ++ cs.dropWhile isNameChar = cs :=
    List.takeWhile_append_dropWhile
  have hwhole := hcast
  rw [← hsplit] at hwhole
  -- only the text that is read is taken apart, not the name in what is written
  conv => arg 2; rw [← hsplit]
  cases hp : ps.position? (String.ofList (cs.takeWhile isNameChar)) with
  | none =>
    rw [resolve, hp]
    exact .unknown hname hwhole (Parameters.position?_eq_none_iff_entry.mp hp) h
  | some i =>
    obtain ⟨value, hentry⟩ := Parameters.position?_eq_some_iff_entry.mp hp
    rw [resolve_of_position? hp]
    exact .known hname hentry h

theorem rewrites_numbered (ps : Parameters) (cs : List Char) : Rewrites ps cs (numbered ps cs) := by
  fun_induction numbered ps cs with
  | case1 => exact .nil
  | case2 cs ih => exact .cast ih
  | case3 c cs hcast hquote ih => exact rewrites_quote hquote ih
  | case4 cs hcast hquote ih =>
    exact rewrites_name (head?_ne_of_ne_cons fun ds heq => hcast ds rfl heq) ih
  | case5 c cs hcast hquote hcolon ih => exact .other hquote hcolon ih

/-- **A text is rewritten to what the scanner returns,** and to nothing else. -/
theorem rewrites_iff {ps : Parameters} {cs out : List Char} :
    Rewrites ps cs out ↔ out = numbered ps cs := by
  constructor
  · exact Rewrites.eq_numbered
  · rintro rfl
    exact rewrites_numbered ps cs

/-! ### The second time -/

section Again
variable {ps : Parameters} {cs rest out : List Char}

/-- A text starts as before, or with a number. -/
theorem Rewrites.head?_eq (h : Rewrites ps cs out) :
    out.head? = cs.head? ∨ out.head? = some '$' := by
  cases h with
  | known => exact .inr rfl
  | _ => exact .inl rfl

theorem Rewrites.head?_ne_colon (h : Rewrites ps cs out) (hcs : cs.head? ≠ some ':') :
    out.head? ≠ some ':' := by
  rcases h.head?_eq with hout | hout
  · rw [hout]
    exact hcs
  · rw [hout]
    decide

theorem Rewrites.isWholeName {name : List Char} (h : Rewrites ps rest out)
    (hname : IsWholeName name rest) : IsWholeName name out := by
  refine ⟨hname.1, ?_⟩
  rcases h.head?_eq with hout | hout
  · rw [hout]
    exact hname.2
  · rw [hout]
    decide

/-- Characters that are neither quotes nor colons are copied. -/
theorem Rewrites.append_left {run : List Char}
    (hrun : ∀ c ∈ run, ¬(c = '\'' ∨ c = '"') ∧ c ≠ ':') (h : Rewrites ps rest out) :
    Rewrites ps (run ++ rest) (run ++ out) := by
  induction run with
  | nil => exact h
  | cons c run ih =>
    obtain ⟨hquote, hcolon⟩ := hrun c List.mem_cons_self
    exact .other hquote hcolon (ih fun d hd => hrun d (List.mem_cons_of_mem c hd))

/-- A number has no quotes and no colons. -/
theorem forall_mem_ordinal (i : Nat) : ∀ c ∈ ordinal i, ¬(c = '\'' ∨ c = '"') ∧ c ≠ ':' := by
  intro c hc
  rw [ordinal, Nat.toString_eq_ofList_toDigits, String.toList_ofList, List.mem_cons] at hc
  rcases hc with rfl | hc
  · decide
  · have hdigit := Nat.isDigit_of_mem_toDigits (by decide) (by decide) hc
    refine ⟨?_, ?_⟩
    · rintro (rfl | rfl) <;> revert hdigit <;> decide
    · rintro rfl
      revert hdigit
      decide

/-- **A text that was rewritten is left alone.** -/
theorem Rewrites.again (h : Rewrites ps cs out) : Rewrites ps out out := by
  induction h with
  | nil => exact .nil
  | quoted hquote hbody _ ih => exact .quoted hquote hbody ih
  | unclosed hquote hbody => exact .unclosed hquote hbody
  | cast _ ih => exact .cast ih
  | @known _ _ _ i _ _ _ _ ih => exact ih.append_left (forall_mem_ordinal i)
  | @unknown name _ _ hname hcast hentry h ih =>
    refine .unknown (h.isWholeName hname) ?_ hentry ih
    cases name with
    | nil => exact h.head?_ne_colon hcast
    | cons => exact hcast
  | other hquote hcolon _ ih => exact .other hquote hcolon ih

end Again

/-! ### The scanner with offsets -/

/-- The characters of a text, each with the offset of its form. -/
def charIndices (offset : Nat) : List Char → List (Nat × Char)
  | [] => []
  | c :: cs => (offset, c) :: charIndices (offset + c.utf8Size) cs

/-- Takes characters up to the next quote of the given kind, or to the end. -/
def copyQuoted (quote : Char) : List (Nat × Char) → List Char × List (Nat × Char)
  | [] => ([], [])
  | (_, c) :: chars =>
    if c = quote then ([c], chars)
    else
      let (run, rest) := copyQuoted quote chars
      (c :: run, rest)

/-- The offset behind the name that starts at an offset, and the characters from there on. -/
def nameEnd (stop : Nat) : List (Nat × Char) → Nat × List (Nat × Char)
  | [] => (stop, [])
  | (offset, c) :: chars =>
    if isNameChar c then nameEnd (offset + c.utf8Size) chars else (stop, (offset, c) :: chars)

theorem length_copyQuoted (quote : Char) (chars : List (Nat × Char)) :
    (copyQuoted quote chars).2.length ≤ chars.length := by
  induction chars with
  | nil => simp [copyQuoted]
  | cons p chars ih =>
    rw [copyQuoted]
    split
    · simp
    · simp only [List.length_cons]
      omega

theorem length_nameEnd (stop : Nat) (chars : List (Nat × Char)) :
    (nameEnd stop chars).2.length ≤ chars.length := by
  induction chars generalizing stop with
  | nil => simp [nameEnd]
  | cons p chars ih =>
    rw [nameEnd]
    split
    · have hle := ih (p.1 + p.2.utf8Size)
      simp only [List.length_cons]
      omega
    · exact Nat.le_refl _

/-- **Numbers the placeholders by their offsets in the text.** There is no result if a name would
have to be cut out of it inside a character. -/
def scan? (ps : Parameters) (sql : String) (chars : List (Nat × Char)) : Option (List Char) :=
  match chars with
  | [] => some []
  | (_, ':') :: (_, ':') :: chars => (scan? ps sql chars).map (':' :: ':' :: ·)
  | (i, c) :: chars =>
    if c = '\'' ∨ c = '"' then
      (scan? ps sql (copyQuoted c chars).2).map (c :: (copyQuoted c chars).1 ++ ·)
    else if c = ':' then
      (slice? sql (i + 1) (nameEnd (i + 1) chars).1).bind fun name =>
        (scan? ps sql (nameEnd (i + 1) chars).2).map (resolve ps name.toList ++ ·)
    else (scan? ps sql chars).map (c :: ·)
termination_by chars.length
decreasing_by
  · simp only [List.length_cons]
    omega
  · have := length_copyQuoted c chars
    simp only [List.length_cons]
    omega
  · have := length_nameEnd (i + 1) chars
    simp only [List.length_cons]
    omega
  · simp only [List.length_cons]
    omega

section Offsets
variable {offset : Nat}

theorem charIndices_cons (c : Char) (cs : List Char) :
    charIndices offset (c :: cs) = (offset, c) :: charIndices (offset + c.utf8Size) cs := rfl

theorem copyQuoted_charIndices (quote : Char) (cs : List Char) :
    copyQuoted quote (charIndices offset cs) = ((splitQuoted quote cs).1,
      charIndices (offset + byteCount (splitQuoted quote cs).1) (splitQuoted quote cs).2) := by
  induction cs generalizing offset with
  | nil => rfl
  | cons c cs ih =>
    rw [charIndices, copyQuoted, splitQuoted, ih]
    split_ifs
    · simp
    · simp [Nat.add_assoc]

theorem nameEnd_charIndices (cs : List Char) :
    nameEnd offset (charIndices offset cs) = (offset + byteCount (cs.takeWhile isNameChar),
      charIndices (offset + byteCount (cs.takeWhile isNameChar)) (cs.dropWhile isNameChar)) := by
  induction cs generalizing offset with
  | nil => rfl
  | cons c cs ih =>
    rw [charIndices, nameEnd, List.takeWhile_cons, List.dropWhile_cons]
    cases isNameChar c with
    | true => simp [ih, Nat.add_assoc]
    | false => simp [charIndices]

end Offsets

section Scan
variable {ps : Parameters} {sql : String}

theorem scan?_cast (i j : Nat) (chars : List (Nat × Char)) :
    scan? ps sql ((i, ':') :: (j, ':') :: chars) =
      (scan? ps sql chars).map (':' :: ':' :: ·) := by
  rw [scan?]

theorem scan?_quote {c : Char} (h : c = '\'' ∨ c = '"') (i : Nat) (chars : List (Nat × Char)) :
    scan? ps sql ((i, c) :: chars) =
      (scan? ps sql (copyQuoted c chars).2).map (c :: (copyQuoted c chars).1 ++ ·) := by
  rw [scan?.eq_def]
  rcases h with rfl | rfl <;> simp

theorem scan?_name {cs : List Char} (h : cs.head? ≠ some ':') (i j : Nat) :
    scan? ps sql ((i, ':') :: charIndices j cs) =
      (slice? sql (i + 1) (nameEnd (i + 1) (charIndices j cs)).1).bind fun name =>
        (scan? ps sql (nameEnd (i + 1) (charIndices j cs)).2).map
          (resolve ps name.toList ++ ·) := by
  rw [scan?.eq_def]
  cases cs with
  | nil => simp [charIndices]
  | cons d cs =>
    have hd : d ≠ ':' := fun he => h (by rw [he]; rfl)
    rw [charIndices]
    split
    · next heq => cases heq
    · next heq =>
      cases heq
      exact absurd rfl hd
    · next heq =>
      cases heq
      simp

theorem scan?_other {c : Char} (hquote : ¬(c = '\'' ∨ c = '"')) (hcolon : c ≠ ':') (i : Nat)
    (chars : List (Nat × Char)) :
    scan? ps sql ((i, c) :: chars) = (scan? ps sql chars).map (c :: ·) := by
  rw [scan?.eq_def]
  split
  · next heq => cases heq
  · next heq =>
    cases heq
    exact absurd rfl hcolon
  · next heq =>
    cases heq
    rw [if_neg hquote, if_neg hcolon]

end Scan

/-- **No name is cut inside a character:** at every place of the text the scanner with offsets
returns what the scanner returns. -/
theorem scan?_charIndices (ps : Parameters) (before cs : List Char) :
    scan? ps (String.ofList (before ++ cs)) (charIndices (byteCount before) cs) =
      some (numbered ps cs) := by
  -- along the scanner, with all that it has read kept in front
  fun_induction numbered ps cs generalizing before with
  | case1 => rw [charIndices, scan?]
  | case2 cs ih =>
    have ih := ih (before ++ [':', ':'])
    rw [List.append_assoc] at ih
    have hoffset : byteCount (before ++ [':', ':']) = byteCount before + 1 + 1 := by
      rw [byteCount_append]
      rfl
    rw [hoffset] at ih
    rw [charIndices, charIndices, scan?_cast]
    exact congrArg (Option.map _) ih
  | case3 c cs hcast hquote ih =>
    have ih := ih (before ++ c :: (splitQuoted c cs).1)
    have hwhole : before ++ c :: (splitQuoted c cs).1 ++ (splitQuoted c cs).2 =
        before ++ c :: cs := by
      rw [List.append_assoc, List.cons_append, splitQuoted_append]
    rw [hwhole, byteCount_append, byteCount_cons, ← Nat.add_assoc] at ih
    rw [charIndices, scan?_quote hquote, copyQuoted_charIndices, ih]
    rfl
  | case4 cs hcast hquote ih =>
    have hhead := head?_ne_of_ne_cons fun ds heq => hcast ds rfl heq
    have hwhole : before ++ [':'] ++ cs.takeWhile isNameChar ++ cs.dropWhile isNameChar =
        before ++ ':' :: cs := by
      rw [List.append_assoc, List.takeWhile_append_dropWhile, List.append_assoc]
      rfl
    have hsize : ':'.utf8Size = 1 := rfl
    have hcolon : byteCount (before ++ [':']) = byteCount before + 1 := by
      rw [byteCount_append]
      rfl
    have hslice := slice?_middle (before ++ [':']) (cs.takeWhile isNameChar)
      (cs.dropWhile isNameChar)
    rw [hwhole, hcolon] at hslice
    have ih := ih (before ++ [':'] ++ cs.takeWhile isNameChar)
    rw [hwhole, byteCount_append, hcolon] at ih
    rw [charIndices_cons, hsize, scan?_name hhead, nameEnd_charIndices, hslice, ih,
      Option.bind_some, Option.map_some, String.toList_ofList]
  | case5 c cs hcast hquote hcolon ih =>
    have ih := ih (before ++ [c])
    rw [List.append_assoc, byteCount_append, byteCount_cons, byteCount_nil, Nat.add_zero] at ih
    rw [charIndices, scan?_other hquote hcolon]
    exact congrArg (Option.map _) ih

end Placeholder

/-- **Only the placeholders of the parameters are changed.** The scanner ends without a slice inside
a character, rewrites every text in the one way in which it can be rewritten, and changes nothing
the second time. All lists of parameters are covered, since each is pushed together from its values
(`Parameters.foldl_push`). -/
theorem toPositional_rewrites (ps : Parameters) (sql : String) :
    Placeholder.scan? ps sql (Placeholder.charIndices 0 sql.toList) =
        some (toPositional ps sql).toList ∧
      (∀ out, Placeholder.Rewrites ps sql.toList out ↔ out = (toPositional ps sql).toList) ∧
      toPositional ps (toPositional ps sql) = toPositional ps sql := by
  have hlist : (toPositional ps sql).toList = Placeholder.numbered ps sql.toList :=
    String.toList_ofList
  refine ⟨?_, fun out => ?_, ?_⟩
  · have hscan := Placeholder.scan?_charIndices ps [] sql.toList
    rw [List.nil_append, String.ofList_toList] at hscan
    rw [hlist]
    exact hscan
  · rw [hlist]
    exact Placeholder.rewrites_iff
  · have hagain := (Placeholder.rewrites_numbered ps sql.toList).again.eq_numbered
    rw [toPositional, hlist, ← hagain]
    rfl

/-- A name in quotes, one before a letter of two bytes, one behind a cast, one in a cast, a longer
name, a colon alone, and a name in quotes that are not closed. -/
example : toPositional ⟨[.null, .null]⟩
    "'é :param0' = :param1é, :::param0, x::param1, :param01, : \":param0" =
      "'é :param0' = $2é, ::$1, x::param1, :param01, : \":param0" := by
  decide +kernel

end Rowset
