import Rowset.Proofs.Exactness
import Rowset.Wire.Decode

/-!
# What is written is read, and what is read is written

Parameters are written by `encode`, which looks at the type and at the shape of the value, and cells
are read by `decodeCell`, which looks at the type alone. `Carries` says which bytes carry which
value of a shape's own. The writer writes nothing but such bytes (`exists_carries_of_encode`), the
reader reads nothing but such values (`exists_carries_of_valueOf?`), and on what is carried each of
them undoes the other. So a value of another shape comes back as the one that its bytes carry
(`decodeCell_of_encode`), and a value that was read can be written to the same type again
(`encode_of_decodeCell_iff`). The exception are row ids, which are read but cannot be written.
-/

namespace Rowset.Wire

open Text (fitsSigned bigEndianInt ofBigEndianInt)

/-! ### Scalars -/

/-- The types of scalars that need no calendar, no decimals and no structure. -/
inductive ScalarType : SqlType → Prop where
  | builtin {name : String} (h : name ∈ ["bool", "int2", "int4", "int8", "float8", "text",
      "varchar", "bpchar", "name", "unknown", "bytea"]) : ScalarType (.builtin name)
  | enumeration (schema name : String) (labels : List String) :
      ScalarType (.enumeration schema name labels)

/-- The shapes of integers and their widths. -/
inductive IntegerShape : Shape → ℕ → Prop where
  | int2 : IntegerShape .int2 2
  | int4 : IntegerShape .int4 4
  | int8 : IntegerShape .int8 8

/-- The shapes of scalars. -/
inductive ScalarShape : Shape → Prop where
  | bool : ScalarShape .bool
  | integer {shape : Shape} {width : ℕ} (h : IntegerShape shape width) : ScalarShape shape
  | float8 : ScalarShape .float8
  | text : ScalarShape .text
  | bytes : ScalarShape .bytes
  | labels (labels : List String) : ScalarShape (.labels labels)

theorem ScalarType.scalarShape {type : SqlType} (h : ScalarType type) : ScalarShape type.shape := by
  cases h with
  | enumeration schema name labels => exact .labels labels
  | builtin h =>
    simp only [List.mem_cons, List.not_mem_nil, or_false] at h
    rcases h with rfl | rfl | rfl | rfl | rfl | rfl | rfl | rfl | rfl | rfl | rfl
    · exact .bool
    · exact .integer .int2
    · exact .integer .int4
    · exact .integer .int8
    · exact .float8
    · exact .text
    · exact .text
    · exact .text
    · exact .text
    · exact .text
    · exact .bytes

/-- **A value is of a shape's own:** it is what cells of the shape are read as. -/
inductive Own : Shape → Value → Prop where
  | bool (b : Bool) : Own .bool (.bool b)
  | integer {shape : Shape} {width : ℕ} (h : IntegerShape shape width) {n : Int64}
      (hrange : InRange width n.toInt) : Own shape (.int n)
  | float8 (x : Binary.Double) : Own .float8 (.float x)
  | text (s : String) : Own .text (.text s)
  | bytes (bs : List UInt8) : Own .bytes (.bytes bs)
  | label (labels : List String) (s : String) : Own (.labels labels) (.text s)

/-- **Bytes carry a value** of a shape's own. -/
inductive Carries : Shape → Value → List UInt8 → Prop where
  | bool (b : Bool) : Carries .bool (.bool b) [if b then 1 else 0]
  | integer {shape : Shape} {width : ℕ} (h : IntegerShape shape width) {n : Int64}
      (hrange : InRange width n.toInt) : Carries shape (.int n) (bigEndianInt width n.toInt)
  | float8 (x : Binary.Double) : Carries .float8 (.float x) (Text.bigEndian 8 x.bits.toNat)
  | text (s : String) : Carries .text (.text s) (Text.toUtf8 s)
  | bytes (bs : List UInt8) : Carries .bytes (.bytes bs) bs
  | label {labels : List String} {s : String} (h : s ∈ labels) :
      Carries (.labels labels) (.text s) (Text.toUtf8 s)

namespace IntegerShape
variable {shape : Shape} {width : ℕ} (h : IntegerShape shape width)
include h

theorem width_pos : 0 < width := by
  cases h <;> decide

theorem width_le : width ≤ 8 := by
  cases h <;> decide

theorem shapeBytes?_eq (v : Value) : shapeBytes? shape v = integerBytes? width v := by
  cases h <;> rfl

theorem valueOf?_eq (bytes : List UInt8) : valueOf? shape bytes = integerOf? width bytes := by
  cases h <;> rfl

/-- An integer of a shape is a word. -/
theorem toInt_ofInt {n : ℤ} (hrange : InRange width n) : (Int64.ofInt n).toInt = n := by
  have hfits := fitsSigned_of_narrow h.width_pos h.width_le (fitsSigned_iff_inRange.mpr hrange)
  obtain ⟨hlow, hhigh⟩ := Text.fitsSigned_word_iff.mp hfits
  exact Int64.toInt_ofInt_of_le hlow hhigh

end IntegerShape

/-! ### What is carried is written and read -/

theorem shapeBytes?_of_integer {shape : Shape} {width : ℕ} (h : IntegerShape shape width)
    {n : Int64} (hrange : InRange width n.toInt) :
    shapeBytes? shape (.int n) = some (bigEndianInt width n.toInt) := by
  rw [h.shapeBytes?_eq, integerBytes?_eq_some_iff]
  exact ⟨n.toInt, rfl, fitsSigned_iff_inRange.mpr hrange, rfl⟩

/-- Apart from labels, a value is written by the writer of the shape, or it is refused. -/
theorem encode_eq_elim {type : SqlType} (hscalar : ScalarShape type.shape)
    (hlabels : ∀ labels, type.shape ≠ .labels labels) {v : Value} (hnull : v.isNull = false) :
    encode type v = (shapeBytes? type.shape v).elim (.error (.mismatch v type))
      fun bytes => .ok (some bytes) := by
  obtain ⟨name, schema, shape⟩ := type
  rw [encode, hnull, if_neg Bool.false_ne_true]
  dsimp only
  cases hscalar with
  | labels labels => exact absurd rfl (hlabels labels)
  | integer hinteger => cases hinteger <;> dsimp only <;> cases shapeBytes? _ v <;> rfl
  | bool | float8 | text | bytes => dsimp only; cases shapeBytes? _ v <;> rfl

/-- **What is carried is written.** -/
theorem Carries.encode_eq {type : SqlType} {v : Value} {bytes : List UInt8}
    (h : Carries type.shape v bytes) : encode type v = .ok (some bytes) := by
  obtain ⟨name, schema, shape⟩ := type
  cases h with
  | bool b => rfl
  | integer hinteger hrange =>
    have hlabels : ∀ labels, shape ≠ .labels labels := by cases hinteger <;> simp
    rw [encode_eq_elim (.integer hinteger) hlabels rfl, shapeBytes?_of_integer hinteger hrange]
    rfl
  | float8 x => rfl
  | text s => rfl
  | bytes => rfl
  | label hmem =>
    show (labelBytes _ _ _).map some = _
    rw [labelBytes, if_pos hmem]
    rfl

/-- **What is carried is read.** -/
theorem Carries.valueOf?_eq {shape : Shape} {v : Value} {bytes : List UInt8}
    (h : Carries shape v bytes) : valueOf? shape bytes = some v := by
  cases h with
  | bool b => cases b <;> rfl
  | @integer _ width hinteger n hrange =>
    have hread : ofBigEndianInt (bigEndianInt width n.toInt) = n.toInt :=
      Text.ofBigEndianInt_bigEndianInt hinteger.width_pos (fitsSigned_iff_inRange.mpr hrange)
    rw [hinteger.valueOf?_eq, integerOf?, if_pos (Text.length_bigEndianInt _ _), hread,
      Int64.ofInt_toInt]
  | float8 x =>
    have hlt : x.bits.toNat < 256 ^ 8 := x.bits.toNat_lt
    have hread : Text.ofBigEndian (Text.bigEndian 8 x.bits.toNat) = x.bits.toNat := by
      rw [Text.ofBigEndian_bigEndian, Nat.mod_eq_of_lt hlt]
    rw [valueOf?, if_pos (Text.length_bigEndian _ _), hread, Binary.Double.ofWord,
      UInt64.ofNat_toNat]
  | text s => rw [valueOf?, textOf?, Text.ofUtf8?_toUtf8, Option.map_some]
  | bytes => rfl
  | @label _ s hmem => rw [valueOf?, textOf?, Text.ofUtf8?_toUtf8, Option.map_some]

theorem decodeCell_eq_ok_iff {column : Column} {bytes : List UInt8} {v : Value} :
    decodeCell column (some bytes) = .ok v ↔ valueOf? column.type.shape bytes = some v := by
  rw [decodeCell]
  cases valueOf? column.type.shape bytes with
  | none => simp
  | some w => simp

/-! ### Nothing else is written -/

/-- A value that is written to a scalar type is a label, or is written by the shape's writer. -/
theorem label_or_shapeBytes?_of_encode {type : SqlType} (hscalar : ScalarShape type.shape)
    {v : Value} {bytes : List UInt8} (h : encode type v = .ok (some bytes)) :
    (∃ labels s, type.shape = .labels labels ∧ v = .text s ∧ s ∈ labels ∧ bytes = Text.toUtf8 s) ∨
      shapeBytes? type.shape v = some bytes := by
  have hnull : v.isNull = false := by
    cases v with
    | null => cases h
    | bool | int | float | text | bytes => rfl
  by_cases hlabels : ∃ labels, type.shape = .labels labels
  · obtain ⟨labels, hshape⟩ := hlabels
    have hlabel : (labelBytes type labels v).map some = .ok (some bytes) := by
      rw [encode, hnull, if_neg Bool.false_ne_true, hshape] at h
      exact h
    cases v with
    | text s =>
      rw [labelBytes] at hlabel
      by_cases hmem : s ∈ labels
      · rw [if_pos hmem] at hlabel
        cases hlabel
        exact .inl ⟨labels, s, hshape, rfl, hmem, rfl⟩
      · rw [if_neg hmem] at hlabel
        cases hlabel
    | null | bool | int | float | bytes => cases hlabel
  · rw [encode_eq_elim hscalar (not_exists.mp hlabels) hnull] at h
    cases hwritten : shapeBytes? type.shape v with
    | none =>
      rw [hwritten] at h
      cases h
    | some other =>
      rw [hwritten] at h
      cases h
      exact .inr rfl

/-- **Whatever is written carries a value of the shape's own.** -/
theorem exists_carries_of_encode {type : SqlType} (hscalar : ScalarShape type.shape) {v : Value}
    {bytes : List UInt8} (h : encode type v = .ok (some bytes)) :
    ∃ w, Carries type.shape w bytes := by
  rcases label_or_shapeBytes?_of_encode hscalar h with ⟨labels, s, hshape, -, hmem, rfl⟩ | hwritten
  · rw [hshape]
    exact ⟨_, .label hmem⟩
  · generalize type.shape = shape at hscalar hwritten
    cases hscalar with
    | bool =>
      obtain ⟨b, -, rfl⟩ := Option.map_eq_some_iff.mp hwritten
      exact ⟨_, .bool b⟩
    | integer hinteger =>
      rw [hinteger.shapeBytes?_eq, integerBytes?_eq_some_iff] at hwritten
      obtain ⟨n, -, hfits, rfl⟩ := hwritten
      have hrange := fitsSigned_iff_inRange.mp hfits
      have hword := hinteger.toInt_ofInt hrange
      refine ⟨.int (Int64.ofInt n), ?_⟩
      rw [← hword] at hrange
      have hcarries := Carries.integer hinteger hrange
      rw [hword] at hcarries
      exact hcarries
    | float8 =>
      obtain ⟨x, -, rfl⟩ := Option.map_eq_some_iff.mp hwritten
      exact ⟨_, .float8 x⟩
    | text =>
      obtain ⟨s, -, rfl⟩ := Option.map_eq_some_iff.mp hwritten
      exact ⟨_, .text s⟩
    | bytes => exact ⟨_, .bytes bytes⟩
    | labels => cases hwritten

/-- A value of a shape's own is carried by what is written for it. -/
theorem carries_of_own {type : SqlType} {v : Value} {bytes : List UInt8} (hown : Own type.shape v)
    (h : encode type v = .ok (some bytes)) : Carries type.shape v bytes := by
  have hcarried : ∃ others, Carries type.shape v others := by
    generalize hshape : type.shape = shape at hown
    cases hown with
    | bool b => exact ⟨_, .bool b⟩
    | integer hinteger hrange => exact ⟨_, .integer hinteger hrange⟩
    | float8 x => exact ⟨_, .float8 x⟩
    | text s => exact ⟨_, .text s⟩
    | bytes bs => exact ⟨_, .bytes bs⟩
    | label labels s =>
      rcases label_or_shapeBytes?_of_encode (hshape ▸ .labels labels) h with
        ⟨labels', s', hshape', hs, hmem, -⟩ | hwritten
      · cases hs
        cases hshape.symm.trans hshape'
        exact ⟨_, .label hmem⟩
      · rw [hshape] at hwritten
        cases hwritten
  obtain ⟨others, hothers⟩ := hcarried
  have hwritten := hothers.encode_eq
  cases h.symm.trans hwritten
  exact hothers

/-! ### Nothing else is read -/

/-- **Whatever is read from a scalar shape is carried by some bytes,** a label if it is one of the
labels. They are the bytes that were read, except that any byte but zero is read as true. -/
theorem exists_carries_of_valueOf? {shape : Shape} (hscalar : ScalarShape shape)
    {bytes : List UInt8} {v : Value} (h : valueOf? shape bytes = some v)
    (hlabel : ∀ labels, shape = .labels labels → ∃ s ∈ labels, bytes = Text.toUtf8 s) :
    ∃ written, Carries shape v written ∧ (shape ≠ .bool → written = bytes) := by
  cases hscalar with
  | bool =>
    match bytes, h with
    | [b], h =>
      cases h
      exact ⟨_, .bool _, fun hne => absurd rfl hne⟩
  | @integer _ width hinteger =>
    rw [hinteger.valueOf?_eq, integerOf?] at h
    by_cases hlength : bytes.length = width
    · rw [if_pos hlength] at h
      cases h
      have hfits := Text.fitsSigned_ofBigEndianInt (hlength ▸ hinteger.width_pos)
      rw [hlength, fitsSigned_iff_inRange] at hfits
      have hword := hinteger.toInt_ofInt hfits
      have hsame : bigEndianInt width (ofBigEndianInt bytes) = bytes := by
        rw [← hlength]
        exact Text.bigEndianInt_ofBigEndianInt bytes
      refine ⟨_, .integer hinteger (hword.symm ▸ hfits), fun _ => ?_⟩
      rw [hword, hsame]
    · rw [if_neg hlength] at h
      cases h
  | float8 =>
    rw [valueOf?] at h
    by_cases hlength : bytes.length = 8
    · rw [if_pos hlength] at h
      cases h
      have hlt : Text.ofBigEndian bytes < 2 ^ 64 := by
        have hbytes := Text.ofBigEndian_lt bytes
        rw [hlength] at hbytes
        exact hbytes
      have hword : (UInt64.ofNat (Text.ofBigEndian bytes)).toNat = Text.ofBigEndian bytes :=
        UInt64.toNat_ofNat_of_lt hlt
      have hsame : Text.bigEndian 8 (Text.ofBigEndian bytes) = bytes := by
        rw [← hlength]
        exact Text.bigEndian_ofBigEndian bytes
      refine ⟨_, .float8 _, fun _ => ?_⟩
      rw [Binary.Double.ofWord, hword, hsame]
    · rw [if_neg hlength] at h
      cases h
  | text =>
    obtain ⟨s, hs, rfl⟩ := Option.map_eq_some_iff.mp h
    exact ⟨_, .text s, fun _ => Text.ofUtf8?_eq_some_iff.mp hs⟩
  | bytes =>
    cases h
    exact ⟨_, .bytes bytes, fun _ => rfl⟩
  | labels labels =>
    obtain ⟨s, hmem, rfl⟩ := hlabel labels rfl
    rw [valueOf?, textOf?, Text.ofUtf8?_toUtf8] at h
    cases h
    exact ⟨_, .label hmem, fun _ => rfl⟩

/-! ### There and back -/

/-- **What is written to a scalar type is read from it as a value that is written in the same way,**
and as the same value if that was of the type's own. The missing value is written and read as the
missing value, whatever the type. -/
theorem decodeCell_of_encode (type : SqlType) (name : String) :
    (ScalarType type → ∀ (v : Value) (bytes : List UInt8), encode type v = .ok (some bytes) →
      ∃ w, decodeCell ⟨name, type⟩ (some bytes) = .ok w ∧ encode type w = .ok (some bytes) ∧
        (Own type.shape v → w = v)) ∧
    encode type .null = .ok none ∧ decodeCell ⟨name, type⟩ none = .ok .null := by
  refine ⟨fun htype v bytes h => ?_, rfl, rfl⟩
  obtain ⟨w, hcarries⟩ := exists_carries_of_encode htype.scalarShape h
  refine ⟨w, decodeCell_eq_ok_iff.mpr hcarries.valueOf?_eq, hcarries.encode_eq, fun hown => ?_⟩
  have hv := (carries_of_own hown h).valueOf?_eq
  have hw := hcarries.valueOf?_eq
  exact Option.some.inj (hw.symm.trans hv)

/-- An enumeration. -/
def moodType : SqlType :=
  .enumeration "public" "mood" ["sad", "größer"]

/-- A text is written to an integer type and comes back as the integer; a label comes back as
itself. -/
theorem decodeCell_of_encode_moodType :
    (encode (.builtin "int4") (.text " 12 ") = .ok (some [0, 0, 0, 12]) ∧
      ∃ w, decodeCell ⟨"n", .builtin "int4"⟩ (some [0, 0, 0, 12]) = .ok w ∧
        encode (.builtin "int4") w = .ok (some [0, 0, 0, 12])) ∧
    encode moodType (.text "größer") = .ok (some (Text.toUtf8 "größer")) ∧
      decodeCell ⟨"m", moodType⟩ (some (Text.toUtf8 "größer")) = .ok (.text "größer") := by
  obtain ⟨hintegers, -⟩ := decodeCell_of_encode (.builtin "int4") "n"
  obtain ⟨hlabels, -⟩ := decodeCell_of_encode moodType "m"
  have hinteger : encode (.builtin "int4") (.text " 12 ") = .ok (some [0, 0, 0, 12]) := by
    decide +kernel
  have hlabel : encode moodType (.text "größer") = .ok (some (Text.toUtf8 "größer")) := by
    decide +kernel
  obtain ⟨w, hread, hagain, -⟩ := hintegers (.builtin (by decide)) _ _ hinteger
  obtain ⟨label, hreadLabel, -, hsame⟩ := hlabels (.enumeration _ _ _) _ _ hlabel
  rw [hsame (.label _ _)] at hreadLabel
  exact ⟨⟨hinteger, w, hread, hagain⟩, hlabel, hreadLabel⟩

/-- **What is read from a cell can be written to the same type, and is then read again, unless the
type is that of row ids.** -/
theorem encode_of_decodeCell_iff {type : SqlType}
    (htype : ScalarType type ∨ type = .builtin "oid") (name : String) {cell : Cell} {v : Value}
    (h : decodeCell ⟨name, type⟩ cell = .ok v) (hnull : v ≠ .null)
    (hlabel : ∀ labels, type.shape = .labels labels → ∃ s ∈ labels, cell = some (Text.toUtf8 s)) :
    (∃ bytes, encode type v = .ok (some bytes) ∧ decodeCell ⟨name, type⟩ (some bytes) = .ok v) ↔
      type ≠ .builtin "oid" := by
  obtain ⟨bytes, rfl⟩ : ∃ bytes, cell = some bytes := by
    cases cell with
    | none =>
      cases h
      exact absurd rfl hnull
    | some bytes => exact ⟨bytes, rfl⟩
  constructor
  · rintro ⟨written, hwritten, -⟩ rfl
    cases v with
    | null => exact hnull rfl
    | bool | int | float | text | bytes => cases hwritten
  · intro hne
    have hscalar := (htype.resolve_right hne).scalarShape
    have hread := decodeCell_eq_ok_iff.mp h
    have hlabels : ∀ labels, type.shape = .labels labels →
        ∃ s ∈ labels, bytes = Text.toUtf8 s := by
      intro labels hshape
      obtain ⟨s, hmem, hcell⟩ := hlabel labels hshape
      exact ⟨s, hmem, Option.some.inj hcell⟩
    obtain ⟨written, hcarries, -⟩ := exists_carries_of_valueOf? hscalar hread hlabels
    exact ⟨written, hcarries.encode_eq, decodeCell_eq_ok_iff.mpr hcarries.valueOf?_eq⟩

/-- A truth value that is read from an unusual byte can be written. -/
theorem encode_of_decodeCell_iff_unusualByte :
    decodeCell ⟨"b", .builtin "bool"⟩ (some [2]) = .ok (.bool true) ∧
      ∃ bytes, encode (.builtin "bool") (.bool true) = .ok (some bytes) ∧
        decodeCell ⟨"b", .builtin "bool"⟩ (some bytes) = .ok (.bool true) := by
  have hread : decodeCell ⟨"b", .builtin "bool"⟩ (some [2]) = .ok (.bool true) := by decide
  refine ⟨hread, (encode_of_decodeCell_iff (.inl (.builtin (by decide))) "b" hread (by decide)
    ?_).mpr (by decide)⟩
  intro labels hshape
  cases hshape

/-- A row id is read as an integer, which is not written as a row id. -/
theorem not_encode_rowId :
    decodeCell ⟨"id", .builtin "oid"⟩ (some [0, 0, 0, 1]) = .ok (.int 1) ∧
      encode (.builtin "oid") (.int 1) = .error (.unsupported (.builtin "oid")) := by
  decide +kernel

end Rowset.Wire
