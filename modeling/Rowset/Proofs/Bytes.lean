import Rowset.Text.Bytes
import Mathlib.Data.Nat.Digits.Lemmas

/-!
# Bytes: numbers and texts

A number of a fixed width and its bytes determine each other: the bytes are the digits of the number
to the base 256, the most significant first (`ofBigEndian_eq_ofDigits`). An integer is written as
the number that it is modulo `256 ^ width` and read as the integer nearest to zero with that
remainder, so the two undo each other on the integers that fit (`ofBigEndianInt_bigEndianInt`,
`bigEndianInt_ofBigEndianInt`). A text and its UTF-8 form determine each other as well
(`ofUtf8?_eq_some_iff`).
-/

namespace Rowset.Text

/-! ### Numbers -/

theorem bigEndian_succ (width n : Nat) : bigEndian (width + 1) n =
    UInt8.ofNat (n / 256 ^ width % 256) :: bigEndian width n := by
  unfold bigEndian
  rw [List.range_succ, List.reverse_append]
  rfl

@[simp]
theorem length_bigEndian (width n : Nat) : (bigEndian width n).length = width := by
  simp [bigEndian]

@[simp]
theorem length_bigEndianInt (width : Nat) (n : Int) : (bigEndianInt width n).length = width :=
  length_bigEndian width _

/-- Bytes are digits to the base 256. -/
theorem ofBigEndian_eq_ofDigits (bytes : List UInt8) :
    ofBigEndian bytes = Nat.ofDigits 256 (bytes.reverse.map UInt8.toNat) := by
  induction bytes using List.reverseRecOn with
  | nil => rfl
  | append_singleton bytes b ih =>
    have hstep : ofBigEndian (bytes ++ [b]) = 256 * ofBigEndian bytes + b.toNat := by
      simp [ofBigEndian, List.foldl_append]
    rw [hstep, ih, List.reverse_append, List.reverse_singleton, List.singleton_append,
      List.map_cons, Nat.ofDigits_cons]
    exact Nat.add_comm _ _

theorem forall_mem_digits (bytes : List UInt8) :
    ∀ d ∈ bytes.reverse.map UInt8.toNat, d < 256 := by
  intro d hd
  obtain ⟨b, -, rfl⟩ := List.mem_map.mp hd
  exact b.toNat_lt

theorem ofBigEndian_lt (bytes : List UInt8) : ofBigEndian bytes < 256 ^ bytes.length := by
  have h := Nat.ofDigits_lt_base_pow_length (by decide : 1 < 256) (forall_mem_digits bytes)
  rw [List.length_map, List.length_reverse] at h
  rw [ofBigEndian_eq_ofDigits]
  exact h

/-- Bytes of one width are determined by their number. -/
theorem ofBigEndian_inj {bytes others : List UInt8} (hlength : bytes.length = others.length)
    (h : ofBigEndian bytes = ofBigEndian others) : bytes = others := by
  rw [ofBigEndian_eq_ofDigits, ofBigEndian_eq_ofDigits] at h
  have hdigits := Nat.ofDigits_inj_of_len_eq (by decide : 1 < 256) (by simpa using hlength)
    (forall_mem_digits bytes) (forall_mem_digits others) h
  have hinj : Function.Injective UInt8.toNat := fun _ _ => UInt8.toNat_inj.mp
  exact List.reverse_injective (List.map_injective_iff.mpr hinj hdigits)

theorem ofBigEndian_cons (b : UInt8) (bytes : List UInt8) :
    ofBigEndian (b :: bytes) = ofBigEndian bytes + 256 ^ bytes.length * b.toNat := by
  rw [ofBigEndian_eq_ofDigits, ofBigEndian_eq_ofDigits, List.reverse_cons, List.map_append,
    Nat.ofDigits_append, List.length_map, List.length_reverse]
  simp

/-- What is written is the number without what does not fit. -/
theorem ofBigEndian_bigEndian (width n : Nat) :
    ofBigEndian (bigEndian width n) = n % 256 ^ width := by
  induction width with
  | zero => simp [bigEndian, ofBigEndian, Nat.mod_one]
  | succ width ih =>
    have hbyte : (UInt8.ofNat (n / 256 ^ width % 256)).toNat = n / 256 ^ width % 256 := by
      have hlt : n / 256 ^ width % 256 < 256 := Nat.mod_lt _ (by decide)
      exact UInt8.toNat_ofNat_of_lt' hlt
    rw [bigEndian_succ, ofBigEndian_cons, ih, length_bigEndian, hbyte, Nat.mod_pow_succ]

theorem bigEndian_ofBigEndian (bytes : List UInt8) :
    bigEndian bytes.length (ofBigEndian bytes) = bytes := by
  refine ofBigEndian_inj (length_bigEndian _ _) ?_
  rw [ofBigEndian_bigEndian, Nat.mod_eq_of_lt (ofBigEndian_lt bytes)]

/-! ### Integers -/

/-- The integers that fit are those between half the modulus below zero and half the modulus. -/
theorem fitsSigned_iff {width : Nat} (hwidth : 0 < width) {n : Int} :
    fitsSigned (8 * width) n = true ↔
      -((256 ^ width : Nat) : Int) ≤ 2 * n ∧ 2 * n < ((256 ^ width : Nat) : Int) := by
  obtain ⟨k, rfl⟩ : ∃ k, width = k + 1 := ⟨width - 1, by omega⟩
  have hhalf : (256 ^ (k + 1) : Nat) = 2 * 2 ^ (8 * (k + 1) - 1) := by
    have hexp : 8 * (k + 1) = (8 * (k + 1) - 1) + 1 := by omega
    have hpow : (256 : Nat) ^ (k + 1) = 2 ^ (8 * (k + 1)) := by
      rw [Nat.pow_mul]
    rw [hpow, hexp, Nat.pow_succ, Nat.mul_comm]
    rfl
  have hcast : ((256 ^ (k + 1) : Nat) : Int) = 2 * ((2 ^ (8 * (k + 1) - 1) : Nat) : Int) := by
    rw [hhalf, Nat.cast_mul]
    rfl
  unfold fitsSigned
  rw [Bool.and_eq_true, decide_eq_true_iff, decide_eq_true_iff, hcast]
  show -((2 ^ (8 * (k + 1) - 1) : Nat) : Int) ≤ n ∧ n < ((2 ^ (8 * (k + 1) - 1) : Nat) : Int) ↔ _
  omega

/-- What is written is the remainder of the integer. -/
theorem ofBigEndian_bigEndianInt (width : Nat) (n : Int) :
    (ofBigEndian (bigEndianInt width n) : Int) = n % ((256 ^ width : Nat) : Int) := by
  have hpos : (0 : Int) < ((256 ^ width : Nat) : Int) := by
    exact_mod_cast Nat.pow_pos (by decide : 0 < 256)
  have hnonneg := Int.emod_nonneg n (Int.ne_of_gt hpos)
  have hlt := Int.emod_lt_of_pos n hpos
  rw [bigEndianInt, ofBigEndian_bigEndian]
  show (((n % ((256 ^ width : Nat) : Int)).toNat % 256 ^ width : Nat) : Int) = _
  have hsmall : (n % ((256 ^ width : Nat) : Int)).toNat < 256 ^ width := by omega
  rw [Nat.mod_eq_of_lt hsmall, Int.toNat_of_nonneg hnonneg]

/-- An integer that fits is read as it was written. -/
theorem ofBigEndianInt_bigEndianInt {width : Nat} (hwidth : 0 < width) {n : Int}
    (h : fitsSigned (8 * width) n = true) : ofBigEndianInt (bigEndianInt width n) = n := by
  obtain ⟨hlow, hhigh⟩ := (fitsSigned_iff hwidth).mp h
  unfold ofBigEndianInt
  rw [length_bigEndianInt, ofBigEndian_bigEndianInt]
  show Int.bmod (n % ((256 ^ width : Nat) : Int)) (256 ^ width) = n
  rw [Int.emod_bmod]
  exact Int.bmod_eq_of_le (by omega) (by omega)

/-- What is read is written as it was. -/
theorem bigEndianInt_ofBigEndianInt (bytes : List UInt8) :
    bigEndianInt bytes.length (ofBigEndianInt bytes) = bytes := by
  refine ofBigEndian_inj (length_bigEndianInt _ _) ?_
  have hlt := ofBigEndian_lt bytes
  have hread := ofBigEndian_bigEndianInt bytes.length (ofBigEndianInt bytes)
  have hmod : ofBigEndianInt bytes % ((256 ^ bytes.length : Nat) : Int) = ofBigEndian bytes := by
    unfold ofBigEndianInt
    show Int.bmod (ofBigEndian bytes : Int) (256 ^ bytes.length) % _ = _
    rw [Int.bmod_emod]
    exact Int.emod_eq_of_lt (by omega) (by omega)
  omega

/-- What is read fits. -/
theorem fitsSigned_ofBigEndianInt {bytes : List UInt8} (h : 0 < bytes.length) :
    fitsSigned (8 * bytes.length) (ofBigEndianInt bytes) = true := by
  have hpos : 0 < 256 ^ bytes.length := Nat.pow_pos (by decide)
  have hlow := Int.le_bmod (x := (ofBigEndian bytes : Int)) hpos
  have hhigh := Int.bmod_lt (x := (ofBigEndian bytes : Int)) hpos
  obtain ⟨k, hk⟩ : ∃ k, 256 ^ bytes.length = 2 * k := by
    obtain ⟨j, hj⟩ : ∃ j, bytes.length = j + 1 := ⟨bytes.length - 1, by omega⟩
    exact ⟨128 * 256 ^ j, by rw [hj, Nat.pow_succ]; omega⟩
  rw [fitsSigned_iff h]
  show -((256 ^ bytes.length : Nat) : Int) ≤
      2 * Int.bmod (ofBigEndian bytes : Int) (256 ^ bytes.length) ∧
    2 * Int.bmod (ofBigEndian bytes : Int) (256 ^ bytes.length) < _
  omega

/-! ### Texts -/

theorem toList_loop (bytes : ByteArray) (i : Nat) (read : List UInt8) :
    ByteArray.toList.loop bytes i read = read.reverse ++ bytes.data.toList.drop i := by
  fun_induction ByteArray.toList.loop bytes i read with
  | case1 i read hlt ih =>
    have hlength : i < bytes.data.toList.length := by simpa using hlt
    have hget : bytes.get! i = bytes.data.toList[i] := by
      show bytes.data[i]! = _
      rw [getElem!_pos bytes.data i hlt, Array.getElem_toList]
    rw [ih, List.drop_eq_getElem_cons hlength, hget]
    simp
  | case2 i read hlt =>
    have hlength : bytes.data.toList.length ≤ i := by simpa using Nat.le_of_not_lt hlt
    rw [List.drop_eq_nil_of_le hlength]
    simp

theorem toList_eq_data (bytes : ByteArray) : bytes.toList = bytes.data.toList := by
  rw [ByteArray.toList, toList_loop]
  simp

/-- **A text is read from its UTF-8 form and from no other bytes.** -/
theorem ofUtf8?_eq_some_iff {bytes : List UInt8} {s : String} :
    ofUtf8? bytes = some s ↔ toUtf8 s = bytes := by
  unfold ofUtf8? toUtf8 String.fromUTF8?
  rw [toList_eq_data]
  constructor
  · intro h
    split at h
    · cases h
      rfl
    · cases h
  · rintro rfl
    have hvalid : ByteArray.IsValidUTF8 ⟨s.toUTF8.data.toList.toArray⟩ := s.isValidUTF8
    rw [dif_pos hvalid]
    rfl

theorem ofUtf8?_toUtf8 (s : String) : ofUtf8? (toUtf8 s) = some s :=
  ofUtf8?_eq_some_iff.mpr rfl

end Rowset.Text
