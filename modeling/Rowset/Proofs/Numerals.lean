import Rowset.Proofs.Spelling
import Rowset.Value
import Mathlib.Data.List.TakeWhile
import Mathlib.Data.Nat.Digits.Lemmas
import Mathlib.Algebra.Order.Field.Power
import Mathlib.Algebra.Order.Field.Rat
import Mathlib.Tactic.FieldSimp
import Mathlib.Tactic.NormNum
import Mathlib.Tactic.Positivity
import Mathlib.Tactic.Ring

/-!
# Integers in values

What a text and what a double say is fixed here without a word on how they are read. `Text.Decimal`
is the grammar of decimals: digits, with at most one sign before them; blanks may stand around one
(`Text.Padded`). `Double.rational?` is the rational number that the three fields of a double stand
for.

Reading agrees with both: a text is read as an integer exactly if it is a decimal of it between
blanks (`readInt?_trimmed_iff`), and a double exactly if the integer is its number
(`exactInt?_eq_some_iff`). `Value.Denotes` puts the two together with the integers themselves.
-/

namespace Rowset

/-! ### Decimals -/

namespace Text

open Name (Digit isDigit_iff)

/-- The number that some digits stand for, the last digit being that of the ones. -/
def digitsNumber (digits : List Char) : ℕ :=
  Nat.ofDigits 10 (digits.reverse.map fun c => c.toNat - '0'.toNat)

/-- **The decimals of an integer:** digits, with at most one sign before them. -/
inductive Decimal : List Char → ℤ → Prop where
  | bare {digits : List Char} (hne : digits ≠ []) (h : ∀ c ∈ digits, Digit c) :
      Decimal digits (digitsNumber digits)
  | plus {digits : List Char} (hne : digits ≠ []) (h : ∀ c ∈ digits, Digit c) :
      Decimal ('+' :: digits) (digitsNumber digits)
  | minus {digits : List Char} (hne : digits ≠ []) (h : ∀ c ∈ digits, Digit c) :
      Decimal ('-' :: digits) (-(digitsNumber digits : ℤ))

/-- A text is another one with blanks around it. -/
def Padded (text core : List Char) : Prop :=
  ∃ before after, text = before ++ core ++ after ∧ (∀ c ∈ before, isBlank c = true) ∧
    ∀ c ∈ after, isBlank c = true

theorem ofDigits_eq_digitsNumber (cs : List Char) : ofDigits cs = digitsNumber cs := by
  induction cs using List.reverseRecOn with
  | nil => rfl
  | append_singleton cs c ih =>
    have hstep : ofDigits (cs ++ [c]) = 10 * ofDigits cs + digitValue c := by
      simp [ofDigits, List.foldl_append]
    rw [hstep, ih, digitsNumber, digitsNumber, List.reverse_append, List.reverse_singleton,
      List.singleton_append, List.map_cons, Nat.ofDigits_cons]
    exact Nat.add_comm _ _

theorem readNat?_eq_some_iff {cs : List Char} {n : ℕ} :
    readNat? cs = some n ↔ cs ≠ [] ∧ (∀ c ∈ cs, Digit c) ∧ n = digitsNumber cs := by
  have hall : cs.all Char.isDigit = true ↔ ∀ c ∈ cs, Digit c := by
    rw [List.all_eq_true]
    exact forall₂_congr fun c _ => isDigit_iff
  have hne : (!cs.isEmpty) = true ↔ cs ≠ [] := by simp
  unfold readNat?
  rw [ofDigits_eq_digitsNumber]
  by_cases h : cs ≠ [] ∧ ∀ c ∈ cs, Digit c
  · have htest : (!cs.isEmpty && cs.all Char.isDigit) = true := by
      rw [Bool.and_eq_true, hne, hall]
      exact h
    rw [if_pos htest, Option.some.injEq]
    exact ⟨fun heq => ⟨h.1, h.2, heq.symm⟩, fun h' => h'.2.2.symm⟩
  · have htest : ¬ (!cs.isEmpty && cs.all Char.isDigit) = true := by
      rw [Bool.and_eq_true, hne, hall]
      exact h
    rw [if_neg htest]
    constructor
    · intro heq
      cases heq
    · intro h'
      exact absurd ⟨h'.1, h'.2.1⟩ h

/-- A digit is neither a sign nor blank. -/
theorem apart_of_digit {c : Char} (h : Digit c) : c ≠ '-' ∧ c ≠ '+' ∧ isBlank c = false := by
  obtain ⟨hlow, hhigh⟩ := h
  have hlow : 48 ≤ c.toNat := hlow
  have hhigh : c.toNat ≤ 57 := hhigh
  refine ⟨?_, ?_, ?_⟩
  · rintro rfl
    exact absurd hlow (by decide)
  · rintro rfl
    exact absurd hlow (by decide)
  · simp [isBlank]
    omega

theorem readInt?_minus (cs : List Char) :
    readInt? ('-' :: cs) = (readNat? cs).map fun n : ℕ => -(n : ℤ) := by
  rw [readInt?]
  cases readNat? cs <;> rfl

theorem readInt?_plus (cs : List Char) :
    readInt? ('+' :: cs) = (readNat? cs).map fun n : ℕ => (n : ℤ) := by
  rw [readInt?]
  cases readNat? cs <;> rfl

theorem readInt?_bare {cs : List Char} (hminus : ∀ rest, cs ≠ '-' :: rest)
    (hplus : ∀ rest, cs ≠ '+' :: rest) : readInt? cs = (readNat? cs).map fun n : ℕ => (n : ℤ) := by
  rw [readInt?.eq_3 cs hminus hplus]
  cases readNat? cs <;> rfl

/-- **Reading takes the decimals of an integer and nothing else.** -/
theorem readInt?_eq_some_iff {cs : List Char} {n : ℤ} : readInt? cs = some n ↔ Decimal cs n := by
  constructor
  · intro h
    by_cases hminus : ∃ rest, cs = '-' :: rest
    · obtain ⟨rest, rfl⟩ := hminus
      rw [readInt?_minus] at h
      obtain ⟨m, hm, rfl⟩ := Option.map_eq_some_iff.mp h
      obtain ⟨hne, hdigits, rfl⟩ := readNat?_eq_some_iff.mp hm
      exact .minus hne hdigits
    by_cases hplus : ∃ rest, cs = '+' :: rest
    · obtain ⟨rest, rfl⟩ := hplus
      rw [readInt?_plus] at h
      obtain ⟨m, hm, rfl⟩ := Option.map_eq_some_iff.mp h
      obtain ⟨hne, hdigits, rfl⟩ := readNat?_eq_some_iff.mp hm
      exact .plus hne hdigits
    rw [readInt?_bare (not_exists.mp hminus) (not_exists.mp hplus)] at h
    obtain ⟨m, hm, rfl⟩ := Option.map_eq_some_iff.mp h
    obtain ⟨hne, hdigits, rfl⟩ := readNat?_eq_some_iff.mp hm
    exact .bare hne hdigits
  · intro h
    cases h with
    | minus hne hdigits =>
      rw [readInt?_minus, readNat?_eq_some_iff.mpr ⟨hne, hdigits, rfl⟩]
      rfl
    | plus hne hdigits =>
      rw [readInt?_plus, readNat?_eq_some_iff.mpr ⟨hne, hdigits, rfl⟩]
      rfl
    | bare hne hdigits =>
      have hminus : ∀ rest, cs ≠ '-' :: rest := by
        rintro rest rfl
        exact (apart_of_digit (hdigits '-' List.mem_cons_self)).1 rfl
      have hplus : ∀ rest, cs ≠ '+' :: rest := by
        rintro rest rfl
        exact (apart_of_digit (hdigits '+' List.mem_cons_self)).2.1 rfl
      rw [readInt?_bare hminus hplus, readNat?_eq_some_iff.mpr ⟨hne, hdigits, rfl⟩]
      rfl

/-- No character of a decimal is blank, and there is one. -/
theorem Decimal.solid {cs : List Char} {n : ℤ} (h : Decimal cs n) :
    cs ≠ [] ∧ ∀ c ∈ cs, isBlank c = false := by
  cases h with
  | bare hne hdigits => exact ⟨hne, fun c hc => (apart_of_digit (hdigits c hc)).2.2⟩
  | plus hne hdigits | minus hne hdigits =>
    refine ⟨List.cons_ne_nil _ _, fun c hc => ?_⟩
    rcases List.mem_cons.mp hc with rfl | hc
    · rfl
    · exact (apart_of_digit (hdigits c hc)).2.2

/-! ### Blanks around a text -/

theorem padded_trimmed (cs : List Char) : Padded cs (trimmed cs) := by
  have hfront := List.takeWhile_append_dropWhile (p := isBlank) (l := cs)
  have hback := List.takeWhile_append_dropWhile (p := isBlank) (l := (cs.dropWhile isBlank).reverse)
  have hrest : cs.dropWhile isBlank =
      trimmed cs ++ ((cs.dropWhile isBlank).reverse.takeWhile isBlank).reverse := by
    rw [trimmed, ← List.reverse_append, hback, List.reverse_reverse]
  refine ⟨cs.takeWhile isBlank, ((cs.dropWhile isBlank).reverse.takeWhile isBlank).reverse,
    ?_, ?_, ?_⟩
  · rw [List.append_assoc, ← hrest, hfront]
  · exact fun c hc => List.mem_takeWhile_imp hc
  · exact fun c hc => List.mem_takeWhile_imp (List.mem_reverse.mp hc)

theorem dropWhile_append_of_solid {before core : List Char} (after : List Char)
    (hbefore : ∀ c ∈ before, isBlank c = true) (hne : core ≠ [])
    (hcore : ∀ c ∈ core, isBlank c = false) :
    (before ++ (core ++ after)).dropWhile isBlank = core ++ after := by
  obtain ⟨c, rest, rfl⟩ := List.exists_cons_of_ne_nil hne
  have hc := hcore c List.mem_cons_self
  rw [List.dropWhile_append_of_pos hbefore, List.cons_append,
    List.dropWhile_cons_of_neg (by simp [hc])]

/-- Blanks around a text without blanks are taken off, and nothing else. -/
theorem trimmed_of_padded {cs core : List Char} (h : Padded cs core) (hne : core ≠ [])
    (hcore : ∀ c ∈ core, isBlank c = false) : trimmed cs = core := by
  obtain ⟨before, after, rfl, hbefore, hafter⟩ := h
  have hreverse : (core ++ after).reverse = after.reverse ++ (core.reverse ++ []) := by simp
  unfold trimmed
  rw [List.append_assoc, dropWhile_append_of_solid after hbefore hne hcore, hreverse,
    dropWhile_append_of_solid [] (fun c hc => hafter c (List.mem_reverse.mp hc))
      (by simpa using hne) (fun c hc => hcore c (List.mem_reverse.mp hc))]
  simp

/-- **Without the blanks around it, a text is read as the integer of which it is a decimal.** -/
theorem readInt?_trimmed_iff {cs : List Char} {n : ℤ} :
    readInt? (trimmed cs) = some n ↔ ∃ core, Padded cs core ∧ Decimal core n := by
  constructor
  · intro h
    exact ⟨trimmed cs, padded_trimmed cs, readInt?_eq_some_iff.mp h⟩
  · rintro ⟨core, hpadded, hdecimal⟩
    obtain ⟨hne, hcore⟩ := hdecimal.solid
    rw [trimmed_of_padded hpadded hne hcore]
    exact readInt?_eq_some_iff.mpr hdecimal

end Text

/-! ### Doubles -/

namespace Binary.Double

/-- **The number that a double stands for,** if it stands for one. Its fields are a sign, an
exponent of eleven bits with the bias 1023, and a fraction of fifty-two bits. The fraction is
counted on top of one, but not under the least exponent; the greatest exponent is no number's. -/
def rational? (x : Double) : Option ℚ :=
  let word := x.bits.toNat
  let sign : ℚ := if word < 2 ^ 63 then 1 else -1
  let exponent : ℕ := word / 2 ^ 52 % 2 ^ 11
  let fraction : ℚ := (word % 2 ^ 52 : ℕ) / 2 ^ 52
  if exponent = 2047 then none
  else if exponent = 0 then some (sign * fraction * 2 ^ (-1022 : ℤ))
  else some (sign * (1 + fraction) * 2 ^ ((exponent : ℤ) - 1023))

/-- The number of a datum. -/
def datumNumber? : Datum → Option ℚ
  | .finite negative m e => some ((if negative then -1 else 1) * m * 2 ^ e)
  | _ => none

theorem two_zpow_sub (e : ℤ) : (2 : ℚ) ^ (e - 52) = 2 ^ e / 2 ^ 52 := by
  rw [zpow_sub₀ (by norm_num : (2 : ℚ) ≠ 0) e 52]
  norm_num

theorem datumNumber?_datum (x : Double) : datumNumber? x.datum = x.rational? := by
  have hsign : Format.double.signBit = 2 ^ 63 := rfl
  have htop : Format.double.topExponent = 2047 := rfl
  have hwidth : Nat.pow 2 Format.double.fractionWidth = 2 ^ 52 := rfl
  have hspan : Nat.pow 2 Format.double.exponentWidth = 2 ^ 11 := rfl
  have hmin : Format.double.minExponent = -1074 := rfl
  unfold datum Format.decode rational?
  simp only [hsign, htop, hwidth, hspan, hmin]
  generalize x.bits.toNat = word
  have hnegative : (if decide (2 ^ 63 ≤ word) = true then (-1 : ℚ) else 1) =
      if word < 2 ^ 63 then 1 else -1 := by
    by_cases h : word < 2 ^ 63
    · rw [if_pos h, if_neg (by simpa using h)]
    · rw [if_neg h, if_pos (by simpa using h)]
  by_cases htopmost : word / 2 ^ 52 % 2 ^ 11 = 2047
  · rw [if_pos htopmost, if_pos htopmost]
    split_ifs <;> rfl
  · rw [if_neg htopmost, if_neg htopmost]
    by_cases hzero : word / 2 ^ 52 % 2 ^ 11 = 0
    · rw [if_pos hzero, if_pos hzero, datumNumber?, hnegative]
      have hexp : (-1074 : ℤ) = -1022 - 52 := by norm_num
      rw [hexp, two_zpow_sub]
      congr 1
      ring
    · rw [if_neg hzero, if_neg hzero, datumNumber?, hnegative]
      generalize word / 2 ^ 52 % 2 ^ 11 = exponent at *
      have hexp : (-1074 : ℤ) + ((exponent - 1 : ℕ) : ℤ) = (exponent : ℤ) - 1023 - 52 := by omega
      rw [hexp, two_zpow_sub]
      push_cast
      congr 1
      field_simp
      ring

/-- The natural number that `m · 2 ^ e` is, if it is one. -/
def scaled? (m : ℕ) (e : ℤ) : Option ℕ :=
  if 0 ≤ e then some (m * 2 ^ e.natAbs)
  else if m % 2 ^ e.natAbs = 0 then some (m / 2 ^ e.natAbs) else none

theorem scaled?_eq_some_iff {m : ℕ} {e : ℤ} {k : ℕ} :
    scaled? m e = some k ↔ (m : ℚ) * 2 ^ e = k := by
  have hpos : (0 : ℚ) < 2 ^ e.natAbs := by positivity
  unfold scaled?
  by_cases he : 0 ≤ e
  · have hpow : (2 : ℚ) ^ e = ((2 ^ e.natAbs : ℕ) : ℚ) := by
      conv_lhs => rw [← Int.natAbs_of_nonneg he]
      rw [zpow_natCast]
      norm_num
    rw [if_pos he, Option.some.injEq, hpow, ← Nat.cast_mul, Nat.cast_inj]
  · have hpow : (2 : ℚ) ^ e = ((2 ^ e.natAbs : ℕ) : ℚ)⁻¹ := by
      have hneg : e = -(e.natAbs : ℤ) := by omega
      conv_lhs => rw [hneg]
      rw [zpow_neg, zpow_natCast]
      norm_num
    have hequal : (m : ℚ) * 2 ^ e = k ↔ m = k * 2 ^ e.natAbs := by
      rw [hpow, ← div_eq_mul_inv, div_eq_iff (by positivity), ← Nat.cast_mul, Nat.cast_inj]
    have hP : 0 < 2 ^ e.natAbs := Nat.two_pow_pos _
    rw [if_neg he, hequal]
    by_cases hdvd : m % 2 ^ e.natAbs = 0
    · rw [if_pos hdvd, Option.some.injEq]
      constructor
      · rintro rfl
        exact (Nat.div_mul_cancel (Nat.dvd_of_mod_eq_zero hdvd)).symm
      · intro hm
        rw [hm, Nat.mul_div_cancel _ hP]
    · rw [if_neg hdvd]
      constructor
      · intro h
        cases h
      · intro hm
        rw [hm, Nat.mul_mod_left] at hdvd
        exact absurd rfl hdvd

theorem exactInt?_of_finite {x : Double} {negative : Bool} {m : ℕ} {e : ℤ}
    (h : x.datum = .finite negative m e) :
    x.exactInt? = (scaled? m e).map fun k : ℕ => if negative then -(k : ℤ) else k := by
  unfold exactInt?
  rw [h]
  show Option.map _ (scaled? m e >>= fun k : ℕ => pure (k : ℤ)) = _
  cases scaled? m e <;> rfl

theorem exactInt?_of_not_finite {x : Double} (h : ∀ negative m e, x.datum ≠ .finite negative m e) :
    x.exactInt? = none := by
  unfold exactInt?
  split
  · next heq => exact absurd heq (h _ _ _)
  · rfl

/-- **An integer is read from a double exactly if it is the number that the double stands for.** -/
theorem exactInt?_eq_some_iff {x : Double} {n : ℤ} :
    x.exactInt? = some n ↔ x.rational? = some (n : ℚ) := by
  rw [← datumNumber?_datum]
  cases hdatum : x.datum with
  | infinite negative | nan negative =>
    rw [exactInt?_of_not_finite (by simp [hdatum])]
    simp [datumNumber?]
  | finite negative m e =>
    rw [exactInt?_of_finite hdatum, datumNumber?, Option.some.injEq, Option.map_eq_some_iff]
    constructor
    · rintro ⟨k, hk, rfl⟩
      rw [mul_assoc, scaled?_eq_some_iff.mp hk]
      cases negative <;> simp
    · intro h
      have hnonneg : (0 : ℚ) ≤ m * 2 ^ e := by positivity
      -- The number is not negative itself, so that the sign of the integer is that of the double.
      cases negative with
      | true =>
        have hn : (m : ℚ) * 2 ^ e = ((-n : ℤ) : ℚ) := by
          rw [Int.cast_neg, ← h]
          simp
        have hle : (0 : ℤ) ≤ -n := by exact_mod_cast hn ▸ hnonneg
        obtain ⟨k, hk⟩ := Int.eq_ofNat_of_zero_le hle
        refine ⟨k, scaled?_eq_some_iff.mpr ?_, ?_⟩
        · rw [hn, hk]
          simp
        · show -(k : ℤ) = n
          omega
      | false =>
        have hn : (m : ℚ) * 2 ^ e = (n : ℚ) := by simpa using h
        have hle : (0 : ℤ) ≤ n := by exact_mod_cast hn ▸ hnonneg
        obtain ⟨k, hk⟩ := Int.eq_ofNat_of_zero_le hle
        refine ⟨k, scaled?_eq_some_iff.mpr ?_, ?_⟩
        · rw [hn, hk]
          simp
        · exact hk.symm

end Binary.Double

/-! ### Values -/

namespace Value

/-- **The integer that a value denotes:** an integer itself, a double that stands for one, or a text
that is a decimal of one between blanks. -/
inductive Denotes : Value → ℤ → Prop where
  | int (n : Int64) : Denotes (.int n) n.toInt
  | float {x : Binary.Double} {n : ℤ} (h : x.rational? = some (n : ℚ)) : Denotes (.float x) n
  | text {s : String} {core : List Char} {n : ℤ} (hpadded : Text.Padded s.toList core)
      (h : Text.Decimal core n) : Denotes (.text s) n

theorem denotes_int_iff {k : Int64} {n : ℤ} : (int k).Denotes n ↔ n = k.toInt := by
  constructor
  · intro h
    cases h with
    | int => rfl
  · rintro rfl
    exact .int k

theorem denotes_float_iff {x : Binary.Double} {n : ℤ} :
    (float x).Denotes n ↔ x.exactInt? = some n := by
  rw [Binary.Double.exactInt?_eq_some_iff]
  constructor
  · intro h
    cases h with
    | float h => exact h
  · exact .float

theorem denotes_text_iff {s : String} {n : ℤ} :
    (text s).Denotes n ↔ Text.readInt? (Text.trimmed s.toList) = some n := by
  rw [Text.readInt?_trimmed_iff]
  constructor
  · intro h
    cases h with
    | text hpadded h => exact ⟨_, hpadded, h⟩
  · rintro ⟨core, hpadded, h⟩
    exact .text hpadded h

/-- A value denotes one integer at most. -/
theorem Denotes.unique {v : Value} {n m : ℤ} (hn : v.Denotes n) (hm : v.Denotes m) : n = m := by
  cases v with
  | int k => exact (denotes_int_iff.mp hn).trans (denotes_int_iff.mp hm).symm
  | float x =>
    exact Option.some.inj ((denotes_float_iff.mp hn).symm.trans (denotes_float_iff.mp hm))
  | text s => exact Option.some.inj ((denotes_text_iff.mp hn).symm.trans (denotes_text_iff.mp hm))
  | null | bool | bytes => cases hn

end Value

end Rowset
