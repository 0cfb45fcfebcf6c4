import Rowset.Proofs.Bytes
import Rowset.Proofs.Notation
import Rowset.Proofs.Numerals
import Rowset.Proofs.Observation
import Rowset.Wire.Encode

/-!
# Integers are exact

A value is written as an integer type if it denotes an integer of the type, and the bytes are then
the two's complement of that integer. A count is the integer that the first value of the answer
denotes.

Both go through a signed word of eight bytes, into which a double is brought without a check. A
double that denotes an integer beyond the word (`Value.Overflows`) becomes the nearest word.
Narrower types refuse that word and a count refuses a negative one, but the type of eight bytes
takes it as it is, and so does a count of one that is not negative. Everywhere else integers are
exact or refused (`exact_iff_not_overflows`).
-/

namespace Rowset

open Text (fitsSigned bigEndianInt)

/-! ### Signed words -/

theorem Text.fitsSigned_word_iff {n : ℤ} :
    fitsSigned 64 n = true ↔ -(2 ^ 63 : ℤ) ≤ n ∧ n < 2 ^ 63 := by
  unfold fitsSigned
  rw [Bool.and_eq_true, decide_eq_true_iff, decide_eq_true_iff]
  rfl

namespace Value

theorem toInt_saturate_of_fits {n : ℤ} (h : fitsSigned 64 n = true) : (saturate n).toInt = n := by
  obtain ⟨hlow, hhigh⟩ := Text.fitsSigned_word_iff.mp h
  have hmin : ¬ n < -(Nat.pow 2 63 : ℤ) := not_lt.mpr hlow
  have hmax : ¬ (Nat.pow 2 63 : ℤ) ≤ n := not_le.mpr hhigh
  rw [saturate, if_neg hmin, if_neg hmax]
  exact Int64.toInt_ofInt_of_le hlow hhigh

theorem toInt_saturate_of_lt {n : ℤ} (h : n < -(2 ^ 63 : ℤ)) :
    (saturate n).toInt = -(2 ^ 63 : ℤ) := by
  have hmin : n < -(Nat.pow 2 63 : ℤ) := h
  rw [saturate, if_pos hmin]
  rfl

theorem toInt_saturate_of_le {n : ℤ} (h : (2 ^ 63 : ℤ) ≤ n) :
    (saturate n).toInt = 2 ^ 63 - 1 := by
  have hmin : ¬ n < -(Nat.pow 2 63 : ℤ) := by
    have hnat : (Nat.pow 2 63 : ℤ) = 2 ^ 63 := rfl
    omega
  have hmax : (Nat.pow 2 63 : ℤ) ≤ n := h
  rw [saturate, if_neg hmin, if_pos hmax]
  rfl

/-! ### Integers in values -/

/-- **A value overflows:** it is a double, and the integer that it denotes is beyond the signed
words of eight bytes. -/
def Overflows (v : Value) (n : ℤ) : Prop :=
  (∃ x, v = .float x) ∧ v.Denotes n ∧ (n < -(2 ^ 63 : ℤ) ∨ (2 ^ 63 : ℤ) ≤ n)

/-- As a parameter, a truth value denotes an integer too. -/
def DenotesParameter (v : Value) (n : ℤ) : Prop :=
  v.Denotes n ∨ ∃ b : Bool, v = .bool b ∧ n = if b then 1 else 0

theorem DenotesParameter.unique {v : Value} {n m : ℤ} (hn : v.DenotesParameter n)
    (hm : v.DenotesParameter m) : n = m := by
  rcases hn with hn | ⟨b, rfl, rfl⟩
  · rcases hm with hm | ⟨b, rfl, rfl⟩
    · exact hn.unique hm
    · cases hn
  · rcases hm with hm | ⟨b', hb, rfl⟩
    · cases hm
    · cases hb
      rfl

/-- A value that overflows is read as the nearest word. -/
theorem integer?_of_overflows {v : Value} {n : ℤ} (h : v.Overflows n) :
    v.integer? = some (saturate n) := by
  obtain ⟨⟨x, rfl⟩, hdenotes, -⟩ := h
  rw [integer?, denotes_float_iff.mp hdenotes]
  rfl

/-- Any other value is read as the integer that it denotes, if that is a word. -/
theorem integer?_eq_some_iff {v : Value} (h : ∀ n, ¬ v.Overflows n) {k : Int64} :
    v.integer? = some k ↔ v.Denotes k.toInt := by
  cases v with
  | null | bool | bytes =>
    constructor <;> intro h <;> cases h
  | int m =>
    rw [integer?, Option.some.injEq, denotes_int_iff, Int64.toInt_inj]
    exact eq_comm
  | float x =>
    have hfits : ∀ n, x.exactInt? = some n → fitsSigned 64 n = true := by
      intro n hn
      by_contra hbeyond
      refine h n ⟨⟨x, rfl⟩, denotes_float_iff.mpr hn, ?_⟩
      rw [Text.fitsSigned_word_iff] at hbeyond
      omega
    rw [integer?, Option.map_eq_some_iff, denotes_float_iff]
    constructor
    · rintro ⟨n, hn, rfl⟩
      rw [toInt_saturate_of_fits (hfits n hn)]
      exact hn
    · intro hk
      refine ⟨k.toInt, hk, Int64.toInt_inj.mp ?_⟩
      exact toInt_saturate_of_fits (hfits _ hk)
  | text s =>
    rw [denotes_text_iff, integer?, Text.readInt64?]
    cases hread : Text.readInt? (Text.trimmed s.toList) with
    | none => simp
    | some n =>
      dsimp only
      rw [Option.some.injEq]
      by_cases hfits : fitsSigned 64 n = true
      · obtain ⟨hlow, hhigh⟩ := Text.fitsSigned_word_iff.mp hfits
        rw [if_pos hfits, Option.some.injEq, ← Int64.toInt_inj, Int64.toInt_ofInt_of_le hlow hhigh]
      · rw [if_neg hfits]
        constructor
        · intro heq
          cases heq
        · rintro rfl
          exact absurd (fitsSigned_toInt k) hfits

end Value

/-! ### Parameters -/

namespace Wire

/-- The integers that fit a width, counted in bytes. -/
def InRange (width : ℕ) (n : ℤ) : Prop :=
  -(2 ^ (8 * width - 1) : ℤ) ≤ n ∧ n < 2 ^ (8 * width - 1)

theorem fitsSigned_iff_inRange {width : ℕ} {n : ℤ} :
    fitsSigned (8 * width) n = true ↔ InRange width n := by
  unfold fitsSigned
  rw [Bool.and_eq_true, decide_eq_true_iff, decide_eq_true_iff]
  rfl

/-- **The two's complement of an integer** that fits a width, the most significant byte first. -/
structure TwosComplement (width : ℕ) (n : ℤ) (bytes : List UInt8) : Prop where
  length : bytes.length = width
  range : InRange width n
  /-- An integer below zero is written as the number that is the modulus above it. -/
  digits : ((Nat.ofDigits 256 (bytes.reverse.map UInt8.toNat) : ℕ) : ℤ) =
    if 0 ≤ n then n else n + 256 ^ width

theorem twosComplement_iff {width : ℕ} (hwidth : 0 < width) {n : ℤ} {bytes : List UInt8} :
    TwosComplement width n bytes ↔ InRange width n ∧ bytes = bigEndianInt width n := by
  have hmod : InRange width n →
      n % ((256 ^ width : ℕ) : ℤ) = if 0 ≤ n then n else n + 256 ^ width := by
    intro h
    obtain ⟨hlow, hhigh⟩ := (Text.fitsSigned_iff hwidth).mp (fitsSigned_iff_inRange.mpr h)
    have hcast : ((256 ^ width : ℕ) : ℤ) = 256 ^ width := by norm_num
    rw [← hcast]
    split_ifs with hn
    · exact Int.emod_eq_of_lt hn (by omega)
    · rw [← Int.add_emod_right]
      exact Int.emod_eq_of_lt (by omega) (by omega)
  constructor
  · rintro ⟨hlength, hrange, hdigits⟩
    refine ⟨hrange, Text.ofBigEndian_inj (by rw [hlength, Text.length_bigEndianInt]) ?_⟩
    have hwritten := Text.ofBigEndian_bigEndianInt width n
    rw [hmod hrange, ← hdigits, ← Text.ofBigEndian_eq_ofDigits] at hwritten
    exact_mod_cast hwritten.symm
  · rintro ⟨hrange, rfl⟩
    refine ⟨Text.length_bigEndianInt _ _, hrange, ?_⟩
    rw [← Text.ofBigEndian_eq_ofDigits, Text.ofBigEndian_bigEndianInt, hmod hrange]

/-- The integer types and their widths. -/
inductive IntegerType : SqlType → ℕ → Prop where
  | int2 : IntegerType (.builtin "int2") 2
  | int4 : IntegerType (.builtin "int4") 4
  | int8 : IntegerType (.builtin "int8") 8

theorem IntegerType.pos {type : SqlType} {width : ℕ} (h : IntegerType type width) : 0 < width := by
  cases h <;> decide

theorem IntegerType.eq_eight_or_le {type : SqlType} {width : ℕ} (h : IntegerType type width) :
    width = 8 ∨ width ≤ 4 := by
  cases h <;> decide

theorem encode_integer_eq {type : SqlType} {width : ℕ} (h : IntegerType type width) (v : Value) :
    encode type v = if v.isNull then .ok none else
      match integerBytes? width v with
      | some bytes => .ok (some bytes)
      | none => .error (.mismatch v type) := by
  cases h <;> rfl

theorem encode_eq_integerBytes? {type : SqlType} {width : ℕ} (h : IntegerType type width)
    (v : Value) (bytes : List UInt8) :
    encode type v = .ok (some bytes) ↔ integerBytes? width v = some bytes := by
  rw [encode_integer_eq h]
  by_cases hnull : v.isNull = true
  · rw [if_pos hnull]
    cases v with
    | null => simp [integerBytes?, toInteger?, Value.integer?]
    | bool | int | float | text | bytes => cases hnull
  · rw [if_neg hnull]
    cases integerBytes? width v with
    | some other => simp
    | none => simp

theorem integerBytes?_eq_some_iff {width : ℕ} {v : Value} {bytes : List UInt8} :
    integerBytes? width v = some bytes ↔ ∃ n, toInteger? v = some n ∧
      fitsSigned (8 * width) n = true ∧ bytes = bigEndianInt width n := by
  unfold integerBytes?
  cases toInteger? v with
  | none => simp
  | some n =>
    dsimp only
    by_cases h : fitsSigned (8 * width) n = true
    · rw [if_pos h, Option.some.injEq]
      constructor
      · rintro rfl
        exact ⟨n, rfl, h, rfl⟩
      · rintro ⟨m, hm, -, rfl⟩
        cases hm
        rfl
    · rw [if_neg h]
      constructor
      · intro heq
        cases heq
      · rintro ⟨m, hm, hfits, -⟩
        cases hm
        exact absurd hfits h

/-- A value that is no truth value stands for the integer that is read from it. -/
theorem toInteger?_of_ne_bool {v : Value} (h : ∀ b, v ≠ .bool b) :
    toInteger? v = v.integer?.map Int64.toInt := by
  cases v with
  | bool b => exact absurd rfl (h b)
  | null | int | float | text | bytes => rfl

theorem toInteger?_of_overflows {v : Value} {n : ℤ} (h : v.Overflows n) :
    toInteger? v = some (Value.saturate n).toInt := by
  have hread := Value.integer?_of_overflows h
  obtain ⟨⟨x, rfl⟩, -, -⟩ := h
  rw [toInteger?_of_ne_bool (by simp), hread]
  rfl

theorem toInteger?_eq_some_iff {v : Value} (h : ∀ n, ¬ v.Overflows n) {n : ℤ} :
    toInteger? v = some n ↔ v.DenotesParameter n ∧ fitsSigned 64 n = true := by
  by_cases hbool : ∃ b, v = .bool b
  · obtain ⟨b, rfl⟩ := hbool
    rw [toInteger?, Option.some.injEq]
    constructor
    · rintro rfl
      refine ⟨.inr ⟨b, rfl, rfl⟩, ?_⟩
      cases b <;> rfl
    · rintro ⟨hdenotes | ⟨b', hb, rfl⟩, -⟩
      · cases hdenotes
      · cases hb
        rfl
  · rw [toInteger?_of_ne_bool (not_exists.mp hbool), Option.map_eq_some_iff]
    constructor
    · rintro ⟨k, hk, rfl⟩
      exact ⟨.inl ((Value.integer?_eq_some_iff h).mp hk), Value.fitsSigned_toInt k⟩
    · rintro ⟨hdenotes | ⟨b, rfl, -⟩, hfits⟩
      · obtain ⟨hlow, hhigh⟩ := Text.fitsSigned_word_iff.mp hfits
        have hword := Int64.toInt_ofInt_of_le hlow hhigh
        refine ⟨Int64.ofInt n, (Value.integer?_eq_some_iff h).mpr ?_, hword⟩
        rw [hword]
        exact hdenotes
      · exact absurd ⟨b, rfl⟩ hbool

/-- An integer of a narrow type is one of the widest. -/
theorem fitsSigned_of_narrow {width : ℕ} (hpos : 0 < width) (hwidth : width ≤ 8) {n : ℤ}
    (h : fitsSigned (8 * width) n = true) : fitsSigned 64 n = true := by
  have hmono : (256 ^ width : ℕ) ≤ 256 ^ 8 := Nat.pow_le_pow_right (by decide) hwidth
  have hword := @Text.fitsSigned_iff 8 (by decide) n
  obtain ⟨hlow, hhigh⟩ := (Text.fitsSigned_iff hpos).mp h
  exact hword.mpr (by omega)

/-- **A type takes a value exactly:** it is written if and only if it denotes an integer of the
type, then as the two's complement of that integer, and otherwise it is refused. -/
structure ExactAs (type : SqlType) (width : ℕ) (v : Value) : Prop where
  succeeds : (∃ bytes, encode type v = .ok (some bytes)) ↔
    ∃ n, v.DenotesParameter n ∧ InRange width n
  written : ∀ bytes, encode type v = .ok (some bytes) →
    ∃ n, v.DenotesParameter n ∧ TwosComplement width n bytes
  /-- The missing value has no bytes. -/
  refused : v ≠ .null → (∀ bytes, encode type v ≠ .ok (some bytes)) →
    encode type v = .error (.mismatch v type)

theorem exactAs_iff_forall {type : SqlType} {width : ℕ} (htype : IntegerType type width)
    (v : Value) : ExactAs type width v ↔ ∀ bytes, encode type v = .ok (some bytes) ↔
      ∃ n, v.DenotesParameter n ∧ TwosComplement width n bytes := by
  have htwos := @twosComplement_iff width htype.pos
  constructor
  · intro hexact bytes
    refine ⟨hexact.written bytes, ?_⟩
    rintro ⟨n, hdenotes, hbytes⟩
    obtain ⟨other, hother⟩ := hexact.succeeds.mpr ⟨n, hdenotes, hbytes.range⟩
    obtain ⟨m, hm, hwritten⟩ := hexact.written other hother
    cases hdenotes.unique hm
    rw [hother, (htwos.mp hbytes).2, (htwos.mp hwritten).2]
  · intro hiff
    refine ⟨⟨?_, ?_⟩, fun bytes => (hiff bytes).mp, fun hnull hnone => ?_⟩
    · rintro ⟨bytes, hbytes⟩
      obtain ⟨n, hdenotes, hwritten⟩ := (hiff bytes).mp hbytes
      exact ⟨n, hdenotes, hwritten.range⟩
    · rintro ⟨n, hdenotes, hrange⟩
      exact ⟨_, (hiff _).mpr ⟨n, hdenotes, htwos.mpr ⟨hrange, rfl⟩⟩⟩
    · have hisNull : v.isNull ≠ true := by
        cases v with
        | null => exact absurd rfl hnull
        | bool | int | float | text | bytes => simp [Value.isNull]
      rw [encode_integer_eq htype, if_neg hisNull] at hnone ⊢
      cases hbytes : integerBytes? width v with
      | some bytes => exact absurd (by rw [hbytes]) (hnone bytes)
      | none => rfl

/-- A word at either end of its range is too wide for the narrow types. -/
theorem not_fitsSigned_saturate {v : Value} {n : ℤ} (h : v.Overflows n) {width : ℕ}
    (hpos : 0 < width) (hwidth : width ≤ 4) :
    fitsSigned (8 * width) (Value.saturate n).toInt ≠ true := by
  obtain ⟨-, -, hbeyond⟩ := h
  have hmono : (256 ^ width : ℕ) ≤ 256 ^ 4 := Nat.pow_le_pow_right (by decide) hwidth
  intro hfits
  obtain ⟨hlow, hhigh⟩ := (Text.fitsSigned_iff hpos).mp hfits
  rcases hbeyond with hlt | hle
  · rw [Value.toInt_saturate_of_lt hlt] at hlow
    omega
  · rw [Value.toInt_saturate_of_le hle] at hhigh
    omega

theorem exactAs_iff {type : SqlType} {width : ℕ} (htype : IntegerType type width) (v : Value) :
    ExactAs type width v ↔ ¬ (width = 8 ∧ ∃ n, v.Overflows n) := by
  have hpos := htype.pos
  have hwide := htype.eq_eight_or_le
  have hencode : ∀ bytes, encode type v = .ok (some bytes) ↔ ∃ n, toInteger? v = some n ∧
      fitsSigned (8 * width) n = true ∧ bytes = bigEndianInt width n := fun bytes => by
    rw [encode_eq_integerBytes? htype, integerBytes?_eq_some_iff]
  rw [exactAs_iff_forall htype]
  by_cases hover : ∃ n, v.Overflows n
  · obtain ⟨n, hn⟩ := hover
    have hread := toInteger?_of_overflows hn
    have hbeyond : ∀ m bytes, v.DenotesParameter m → ¬ TwosComplement width m bytes := by
      intro m bytes hm htwos
      obtain rfl := hm.unique (.inl hn.2.1)
      have hfits := fitsSigned_of_narrow hpos (by omega) (fitsSigned_iff_inRange.mpr htwos.range)
      have hrange := Text.fitsSigned_word_iff.mp hfits
      have hout := hn.2.2
      omega
    rcases hwide with rfl | hwide
    · -- The word at the end of the range is taken, although it is not the integer.
      refine iff_of_false (fun hexact => ?_) (fun hnot => hnot ⟨rfl, n, hn⟩)
      obtain ⟨m, hm, htwos⟩ := (hexact (bigEndianInt 8 (Value.saturate n).toInt)).mp
        ((hencode _).mpr ⟨_, hread, Value.fitsSigned_toInt _, rfl⟩)
      exact hbeyond m _ hm htwos
    · -- A narrow type takes neither the word nor the integer.
      refine iff_of_true (fun bytes => ?_) (fun h => by omega)
      rw [hencode]
      refine iff_of_false ?_ ?_
      · rintro ⟨m, hm, hfits, -⟩
        cases hread.symm.trans hm
        exact not_fitsSigned_saturate hn hpos hwide hfits
      · rintro ⟨m, hm, htwos⟩
        exact hbeyond m bytes hm htwos
  · refine iff_of_true (fun bytes => ?_) (fun h => hover h.2)
    rw [hencode]
    refine exists_congr fun n => ?_
    rw [toInteger?_eq_some_iff (not_exists.mp hover), twosComplement_iff hpos,
      ← fitsSigned_iff_inRange]
    constructor
    · rintro ⟨⟨hdenotes, -⟩, hfits, hbytes⟩
      exact ⟨hdenotes, hfits, hbytes⟩
    · rintro ⟨hdenotes, hfits, hbytes⟩
      exact ⟨⟨hdenotes, fitsSigned_of_narrow hpos (by omega) hfits⟩, hfits, hbytes⟩

end Wire

/-! ### Counts -/

namespace Request

/-- The value of an answer that tells the count. -/
def inspected? (rows : List Record) : Option Value :=
  rows.head?.bind countedValue?

/-- **A count is exact:** it is the natural number that the value of the answer denotes, if that is
one below `2 ^ 63`, and otherwise it fails. -/
def CountsExactly (rows : List Record) (result : Except Fault Reply) : Prop :=
  (∀ n : ℕ, result = .ok (.count n) ↔
    n < 2 ^ 63 ∧ ∃ v, inspected? rows = some v ∧ v.Denotes n) ∧
  ((∃ n : ℕ, result = .ok (.count n)) ∨ ∃ detail, result = .error (.internal detail))

theorem readCount_eq_ok_iff {rows : List Record} {n : ℕ} :
    readCount rows = .ok n ↔ ∃ v k, inspected? rows = some v ∧ v.integer? = some k ∧
      0 ≤ k.toInt ∧ k.toInt.toNat = n := by
  unfold readCount inspected?
  cases rows with
  | nil => simp
  | cons row rest =>
    dsimp only [List.head?_cons, Option.bind_some]
    cases hvalue : countedValue? row with
    | none => simp
    | some v =>
      cases hread : v.integer? with
      | none => simp [hread]
      | some k =>
        by_cases hpos : 0 ≤ k.toInt
        · simp [hread, hpos]
        · simp [hread, hpos]

theorem readCount_fails {rows : List Record} (h : ∀ n, readCount rows ≠ .ok n) :
    ∃ detail, readCount rows = .error (.internal detail) := by
  have hcounts := counts_readCount rows
  generalize readCount rows = result at h hcounts
  cases hcounts with
  | number => exact absurd rfl (h _)
  | noRow | noValue | noCount => exact ⟨_, rfl⟩

theorem countsExactly_iff (rows : List Record) :
    CountsExactly rows ((readCount rows).map .count) ↔
      ¬ ∃ v n, inspected? rows = some v ∧ v.Overflows n ∧ 0 ≤ n := by
  have hcount : ∀ n : ℕ, (readCount rows).map Reply.count = .ok (.count n) ↔
      readCount rows = .ok n := by
    intro n
    cases readCount rows with
    | error fault => simp [Except.map]
    | ok m => simp [Except.map]
  have hfails : (∃ n : ℕ, (readCount rows).map Reply.count = .ok (.count n)) ∨
      ∃ detail, (readCount rows).map Reply.count = .error (.internal detail) := by
    by_cases hok : ∃ n, readCount rows = .ok n
    · obtain ⟨n, hn⟩ := hok
      exact .inl ⟨n, (hcount n).mpr hn⟩
    · obtain ⟨detail, hdetail⟩ := readCount_fails (not_exists.mp hok)
      rw [hdetail]
      exact .inr ⟨detail, rfl⟩
  unfold CountsExactly
  rw [and_iff_left hfails]
  simp only [hcount, readCount_eq_ok_iff]
  constructor
  · rintro hexact ⟨v, n, hv, hover, hn⟩
    have hread := Value.integer?_of_overflows hover
    have hle : (2 ^ 63 : ℤ) ≤ n := by
      have hout := hover.2.2
      omega
    -- The count of the word at the end of the range is not the integer.
    have hword := Value.toInt_saturate_of_le hle
    obtain ⟨-, w, hw, hdenotes⟩ := (hexact (2 ^ 63 - 1)).mp
      ⟨v, _, hv, hread, by rw [hword]; decide, by rw [hword]; rfl⟩
    cases hv.symm.trans hw
    have heq := hdenotes.unique hover.2.1
    omega
  · intro hnone n
    constructor
    · rintro ⟨v, k, hv, hread, hpos, rfl⟩
      have hk := k.toInt_lt
      have hfits : ∀ m, ¬ v.Overflows m := by
        intro m hover
        have hneg : m < 0 := by
          by_contra hm
          exact hnone ⟨v, m, hv, hover, not_lt.mp hm⟩
        have hlow : m < -(2 ^ 63 : ℤ) := by
          have hout := hover.2.2
          omega
        -- A double below the words is read as the least of them, which is no count.
        cases hread.symm.trans (Value.integer?_of_overflows hover)
        rw [Value.toInt_saturate_of_lt hlow] at hpos
        omega
      refine ⟨by omega, v, hv, ?_⟩
      rw [Int.toNat_of_nonneg hpos]
      exact (Value.integer?_eq_some_iff hfits).mp hread
    · rintro ⟨hn, v, hv, hdenotes⟩
      have hfits : ∀ m, ¬ v.Overflows m := by
        intro m hover
        have heq := hover.2.1.unique hdenotes
        have hout := hover.2.2
        omega
      have hword : (Int64.ofInt n).toInt = n :=
        Int64.toInt_ofInt_of_le (by omega) (by omega)
      refine ⟨v, Int64.ofInt n, hv, (Value.integer?_eq_some_iff hfits).mpr ?_, ?_, ?_⟩
      · rw [hword]
        exact hdenotes
      · omega
      · omega

end Request

/-- **Integers are exact except for doubles that overflow.** A parameter of an integer type is exact
unless the type has eight bytes and the value overflows; a count is exact unless the value that
tells it overflows upwards. -/
theorem exact_iff_not_overflows (v : Value) (rows : List Record) :
    (∀ type width, Wire.IntegerType type width →
      (Wire.ExactAs type width v ↔ ¬ (width = 8 ∧ ∃ n, v.Overflows n))) ∧
    ∀ (σ : Type) (logging : Logging) (executor : Executor σ) (state : σ) (scope : Scope)
      (bound : Bound), ((Request.count scope).run logging executor state).1.sent = [bound] →
      (executor state bound).1.result = .ok rows →
      (Request.CountsExactly rows ((Request.count scope).run logging executor state).1.result ↔
        ¬ ∃ w n, Request.inspected? rows = some w ∧ w.Overflows n ∧ 0 ≤ n) := by
  refine ⟨fun type width htype => Wire.exactAs_iff htype v, ?_⟩
  intro σ logging executor state scope bound hsent hrows
  have hresult := Request.result_of_sent logging executor state hsent
  rw [hresult, hrows]
  exact Request.countsExactly_iff rows

/-- The double of the least word, which does not overflow. -/
def leastValue : Value :=
  .float ⟨0xC3E0000000000000⟩

/-- An answer that tells the count as a decimal between blanks. -/
def paddedRows : List Record :=
  [.ofList [("count", .text "\u00a0+12 ")]]

/-- An executor that gives the same answer to every statement. -/
def steadyExecutor (rows : List Record) : Executor Unit :=
  fun _ _ => (⟨.ok rows, 0⟩, ())

/-- The statement that counts the rows of a table. -/
def tallyStatement : Bound :=
  ⟨"SELECT COUNT(*) AS \"count\" FROM \"t\"", .empty⟩

theorem exact_iff_not_overflows_leastValue :
    Wire.ExactAs (.builtin "int8") 8 leastValue ∧
      Wire.encode (.builtin "int8") leastValue = .ok (some [128, 0, 0, 0, 0, 0, 0, 0]) ∧
    ((Request.count (.ofTable "t")).run .standard (steadyExecutor paddedRows) ()).1.sent =
        [tallyStatement] ∧
      ((Request.count (.ofTable "t")).run .standard (steadyExecutor paddedRows) ()).1.result =
        .ok (.count 12) ∧
      Request.CountsExactly paddedRows
        ((Request.count (.ofTable "t")).run .standard (steadyExecutor paddedRows) ()).1.result := by
  obtain ⟨hencode, hcount⟩ := exact_iff_not_overflows leastValue paddedRows
  have hsent : ((Request.count (.ofTable "t")).run .standard
      (steadyExecutor paddedRows) ()).1.sent = [tallyStatement] := by decide +kernel
  refine ⟨(hencode _ _ .int8).mpr ?_, by decide +kernel, hsent, by decide +kernel,
    (hcount Unit _ (steadyExecutor paddedRows) () _ _ hsent rfl).mpr ?_⟩
  · rintro ⟨-, n, -, hdenotes, hbeyond⟩
    have hread := Value.denotes_float_iff.mp hdenotes
    have hleast : (⟨0xC3E0000000000000⟩ : Binary.Double).exactInt? = some (-(2 ^ 63)) := by
      decide +kernel
    cases hleast.symm.trans hread
    omega
  · rintro ⟨v, n, hv, ⟨⟨x, rfl⟩, -, -⟩, -⟩
    have htext : Request.inspected? paddedRows = some (.text "\u00a0+12 ") := by decide +kernel
    cases htext.symm.trans hv

/-- The least double above the words. -/
def largeValue : Value :=
  .float ⟨0x43E0000000000000⟩

/-- A double that overflows is written as the greatest word, and is counted as it. -/
theorem not_exact_largeValue :
    (largeValue.Denotes (2 ^ 63) ∧
      Wire.encode (.builtin "int8") largeValue =
        .ok (some [127, 255, 255, 255, 255, 255, 255, 255]) ∧
      ¬ Wire.ExactAs (.builtin "int8") 8 largeValue) ∧
    ((Request.count (.ofTable "t")).run .standard
        (steadyExecutor [.ofList [("count", largeValue)]]) ()).1.result =
      .ok (.count (2 ^ 63 - 1)) ∧
    ¬ Request.CountsExactly [.ofList [("count", largeValue)]]
      (.ok (.count (2 ^ 63 - 1))) := by
  have hlarge : largeValue.Denotes (2 ^ 63) :=
    Value.denotes_float_iff.mpr (by decide +kernel)
  have hover : largeValue.Overflows (2 ^ 63) := ⟨⟨_, rfl⟩, hlarge, .inr le_rfl⟩
  refine ⟨⟨hlarge, by decide +kernel, fun hexact => ?_⟩, by decide +kernel, fun hexact => ?_⟩
  · exact (Wire.exactAs_iff .int8 largeValue).mp hexact ⟨rfl, _, hover⟩
  · obtain ⟨-, v, hv, hdenotes⟩ := (hexact.1 (2 ^ 63 - 1)).mp rfl
    have htold : Request.inspected? [.ofList [("count", largeValue)]] = some largeValue := by
      decide +kernel
    cases htold.symm.trans hv
    have heq := hdenotes.unique hlarge
    omega

end Rowset
