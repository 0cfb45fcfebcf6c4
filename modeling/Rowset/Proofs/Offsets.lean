import Rowset.Proofs.Bytes

/-!
# Offsets into a text

A text is cut at offsets into its UTF-8 form. This can only be done at the boundaries between
characters (`isBoundary`), and a slice at other offsets is refused (`slice?`). The boundaries are
the lengths of what a text can start with (`isBoundary_iff`), so that a slice is a part of the text
(`slice?_eq_some_iff`).
-/

namespace Rowset.Text

/-- **Holds of the offsets at which a text can be cut:** its end, and those at which the form of a
character starts. -/
def isBoundary (s : String) (offset : Nat) : Bool :=
  String.Pos.Raw.isValid s ⟨offset⟩

/-- The part of a text between two offsets. There is none unless the text can be cut at both. -/
def slice? (s : String) (start stop : Nat) : Option String :=
  if isBoundary s start && isBoundary s stop && decide (start ≤ stop) then
    ofUtf8? (((toUtf8 s).drop start).take (stop - start))
  else none

/-- The second character takes two bytes, and the text cannot be cut between them. -/
example : slice? "aéo" 1 3 = some "é" ∧ slice? "aéo" 1 2 = none := by decide +kernel

/-- The length of the UTF-8 form of some characters. -/
def byteCount (cs : List Char) : Nat :=
  (String.ofList cs).utf8ByteSize

@[simp]
theorem byteCount_nil : byteCount [] = 0 := rfl

@[simp]
theorem byteCount_append (cs ds : List Char) :
    byteCount (cs ++ ds) = byteCount cs + byteCount ds := by
  rw [byteCount, String.ofList_append, String.utf8ByteSize_append]
  rfl

@[simp]
theorem byteCount_cons (c : Char) (cs : List Char) :
    byteCount (c :: cs) = c.utf8Size + byteCount cs := by
  rw [byteCount, String.ofList_cons, String.utf8ByteSize_append, String.utf8ByteSize_singleton]
  rfl

theorem length_toUtf8 (s : String) : (toUtf8 s).length = s.utf8ByteSize := by
  rw [toUtf8, toList_eq_data]
  rfl

theorem toUtf8_append (s t : String) : toUtf8 (s ++ t) = toUtf8 s ++ toUtf8 t := by
  have h : (s ++ t).toUTF8 = s.toUTF8 ++ t.toUTF8 := String.toByteArray_append
  rw [toUtf8, toUtf8, toUtf8, toList_eq_data, toList_eq_data, toList_eq_data, h]
  simp

theorem isBoundary_iff {s : String} {offset : Nat} :
    isBoundary s offset = true ↔ ∃ a b : String, s = a ++ b ∧ a.utf8ByteSize = offset := by
  rw [isBoundary, String.Pos.Raw.isValid_eq_true_iff, String.Pos.Raw.isValid_iff_exists_append]
  constructor
  · rintro ⟨a, b, hs, hoffset⟩
    exact ⟨a, b, hs, (congrArg String.Pos.Raw.byteIdx hoffset).symm⟩
  · rintro ⟨a, b, hs, rfl⟩
    exact ⟨a, b, hs, rfl⟩

theorem toUtf8_inj {s t : String} : toUtf8 s = toUtf8 t ↔ s = t := by
  constructor
  · intro h
    have hread := ofUtf8?_eq_some_iff.mpr h
    rw [ofUtf8?_toUtf8] at hread
    exact (Option.some.inj hread).symm
  · rintro rfl
    rfl

/-- **A slice is a part of the text** that starts and ends at the offsets. -/
theorem slice?_eq_some_iff {s t : String} {start stop : Nat} : slice? s start stop = some t ↔
    ∃ a b : String, s = a ++ t ++ b ∧ a.utf8ByteSize = start ∧
      (a ++ t).utf8ByteSize = stop := by
  unfold slice?
  constructor
  · intro h
    split at h
    · next hbounds =>
      rw [Bool.and_eq_true, Bool.and_eq_true, decide_eq_true_iff] at hbounds
      obtain ⟨⟨hstart, hstop⟩, hle⟩ := hbounds
      obtain ⟨a, rest, rfl, hasize⟩ := isBoundary_iff.mp hstart
      obtain ⟨c, b, hs, hcsize⟩ := isBoundary_iff.mp hstop
      rw [ofUtf8?_eq_some_iff] at h
      -- the text up to the second offset is the text up to the first one and then the slice
      have hc : toUtf8 c = toUtf8 (a ++ t) := by
        have htake : toUtf8 c = (toUtf8 (a ++ rest)).take stop := by
          rw [hs, toUtf8_append, List.take_left' (by rw [length_toUtf8, hcsize])]
        have hstopeq : stop = start + (stop - start) := by omega
        have hlength : (toUtf8 a).length = start := by rw [length_toUtf8, hasize]
        rw [htake, hstopeq, List.take_add, ← h, toUtf8_append, List.take_left' hlength,
          toUtf8_append]
      have hc := toUtf8_inj.mp hc
      exact ⟨a, b, by rw [hs, hc], hasize, by rw [← hc, hcsize]⟩
    · cases h
  · rintro ⟨a, b, rfl, hstart, hstop⟩
    have hastart : isBoundary (a ++ t ++ b) start = true :=
      isBoundary_iff.mpr ⟨a, t ++ b, String.append_assoc, hstart⟩
    have hastop : isBoundary (a ++ t ++ b) stop = true := isBoundary_iff.mpr ⟨a ++ t, b, rfl, hstop⟩
    rw [String.utf8ByteSize_append] at hstop
    have hle : start ≤ stop := by omega
    have hsize : stop - start = (toUtf8 t).length := by
      rw [length_toUtf8]
      omega
    rw [hastart, hastop, decide_eq_true hle, hsize, toUtf8_append, toUtf8_append,
      List.append_assoc, List.drop_left' (by rw [length_toUtf8, hstart]), List.take_left]
    exact ofUtf8?_toUtf8 t

theorem slice?_middle (before middle behind : List Char) :
    slice? (String.ofList (before ++ middle ++ behind)) (byteCount before)
      (byteCount before + byteCount middle) = some (String.ofList middle) := by
  refine slice?_eq_some_iff.mpr ⟨String.ofList before, String.ofList behind, ?_, rfl, ?_⟩
  · rw [String.ofList_append, String.ofList_append]
  · rw [← String.ofList_append]
    exact byteCount_append before middle

end Rowset.Text
