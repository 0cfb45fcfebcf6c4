import Rowset.Request.Log
import Rowset.Proofs.Offsets

/-!
# Truncation of logged statements

A statement that is too long for the log is cut where its characters no longer fit (`takeBytes`).
What is left is the longest start of the text that fits (`IsLongestStart`): every start that fits is
a start of it (`prefix_takeBytes_iff`).

The place can also be found from the limit: `lastBoundary` goes back from it, one byte at a time, to
an offset at which the text can be cut. At the latest it stops at the start of the text, so there is
a slice up to that offset, and it is what is left (`slice?_lastBoundary`).
-/

namespace Rowset

open Text (byteCount byteCount_cons isBoundary isBoundary_iff slice? slice?_eq_some_iff)

/-- **The longest start of a text that fits** into some bytes. -/
structure IsLongestStart (room : Nat) (s start : String) : Prop where
  /-- The text goes on behind it. -/
  split : ∃ rest, s = start ++ rest
  fits : start.utf8ByteSize ≤ room
  /-- A start of the text that has more characters does not fit. -/
  longest : ∀ other rest, s = other ++ rest → start.length < other.length →
    room < other.utf8ByteSize

/-- The last offset up to a limit at which a text can be cut. -/
def lastBoundary (s : String) : Nat → Nat
  | 0 => 0
  | limit + 1 => if isBoundary s (limit + 1) then limit + 1 else lastBoundary s limit

/-! ### The search -/

section Search
variable (s : String)

theorem isBoundary_lastBoundary (limit : Nat) : isBoundary s (lastBoundary s limit) = true := by
  induction limit with
  | zero => exact isBoundary_iff.mpr ⟨"", s, by rw [String.empty_append], rfl⟩
  | succ limit ih =>
    rw [lastBoundary]
    split
    · next h => exact h
    · exact ih

theorem lastBoundary_le (limit : Nat) : lastBoundary s limit ≤ limit := by
  induction limit with
  | zero => exact Nat.le_refl 0
  | succ limit ih =>
    rw [lastBoundary]
    split <;> omega

variable {s} in
theorem le_lastBoundary {offset limit : Nat} (hle : offset ≤ limit)
    (h : isBoundary s offset = true) : offset ≤ lastBoundary s limit := by
  induction limit with
  | zero => exact hle
  | succ limit ih =>
    rw [lastBoundary]
    split
    · exact hle
    · next hnot =>
      have hne : offset ≠ limit + 1 := fun heq => hnot (heq ▸ h)
      exact ih (by omega)

end Search

/-! ### What fits -/

/-- **The starts of what is taken** are the starts that fit. -/
theorem prefix_takeBytes_iff {room : Nat} {cs qs : List Char} :
    qs <+: takeBytes room cs ↔ qs <+: cs ∧ byteCount qs ≤ room := by
  induction cs generalizing room qs with
  | nil =>
    rw [takeBytes, List.prefix_nil]
    constructor
    · rintro rfl
      exact ⟨rfl, Nat.zero_le room⟩
    · exact And.left
  | cons c cs ih =>
    cases qs with
    | nil => simp
    | cons q qs =>
      rw [takeBytes, List.cons_prefix_cons, byteCount_cons]
      split
      · next hfits =>
        rw [List.cons_prefix_cons, ih]
        constructor
        · rintro ⟨rfl, hqs, hsize⟩
          exact ⟨⟨rfl, hqs⟩, by omega⟩
        · rintro ⟨⟨rfl, hqs⟩, hsize⟩
          exact ⟨rfl, hqs, by omega⟩
      · next hfull =>
        rw [List.prefix_nil]
        constructor
        · rintro ⟨⟩
        · rintro ⟨⟨rfl, -⟩, hsize⟩
          omega

/-- A start of a text that fits is taken. -/
theorem prefix_of_split {room : Nat} {s a b : String} (hs : s = a ++ b)
    (hfits : a.utf8ByteSize ≤ room) : a.toList <+: takeBytes room s.toList := by
  refine prefix_takeBytes_iff.mpr ⟨⟨b.toList, ?_⟩, ?_⟩
  · rw [← String.toList_append, ← hs]
  · rw [byteCount, String.ofList_toList]
    exact hfits

theorem isLongestStart_takeBytes (room : Nat) (s : String) :
    IsLongestStart room s (String.ofList (takeBytes room s.toList)) := by
  obtain ⟨⟨rest, hrest⟩, hfits⟩ := prefix_takeBytes_iff.mp (List.prefix_refl
    (takeBytes room s.toList))
  refine ⟨⟨String.ofList rest, ?_⟩, hfits, fun other behind hs hlonger => ?_⟩
  · rw [← String.ofList_append, hrest, String.ofList_toList]
  · by_contra hroom
    have hlength := (prefix_of_split hs (Nat.le_of_not_lt hroom)).length_le
    rw [String.length_ofList] at hlonger
    rw [String.length_toList] at hlength
    omega

/-- **The search finds the same start:** what is taken is the slice up to the last boundary. -/
theorem slice?_lastBoundary (room : Nat) (s : String) :
    slice? s 0 (lastBoundary s room) = some (String.ofList (takeBytes room s.toList)) := by
  have hstart := isLongestStart_takeBytes room s
  obtain ⟨rest, hrest⟩ := hstart.split
  have hle : (String.ofList (takeBytes room s.toList)).utf8ByteSize ≤ lastBoundary s room :=
    le_lastBoundary hstart.fits (isBoundary_iff.mpr ⟨_, rest, hrest, rfl⟩)
  have hge : lastBoundary s room ≤ (String.ofList (takeBytes room s.toList)).utf8ByteSize := by
    obtain ⟨a, b, hs, hsize⟩ := isBoundary_iff.mp (isBoundary_lastBoundary s room)
    obtain ⟨more, hmore⟩ := prefix_of_split hs (hsize ▸ lastBoundary_le s room)
    rw [← hmore, String.ofList_append, String.ofList_toList, String.utf8ByteSize_append]
    omega
  refine slice?_eq_some_iff.mpr ⟨"", rest, ?_, rfl, ?_⟩
  · rw [String.empty_append]
    exact hrest
  · rw [String.empty_append]
    exact Nat.le_antisymm hle hge

/-! ### What is logged -/

namespace Logging

/-- **A statement is logged up to the limit.** One that fits is logged as it is. Of one that does
not, the longest start that fits is logged, with three dots behind it. From every limit the search
for a boundary ends at one, and there is a slice up to it. -/
theorem excerpt_truncates (l : Logging) (sql : String) :
    (l.maxLength = none → l.excerpt sql = sql) ∧
      ∀ room, l.maxLength = some room →
        (sql.utf8ByteSize ≤ room → l.excerpt sql = sql) ∧
        (room < sql.utf8ByteSize → ∃ start, IsLongestStart room sql start ∧
          l.excerpt sql = start ++ "..." ∧
          slice? sql 0 (lastBoundary sql room) = some start) ∧
        isBoundary sql (lastBoundary sql room) = true := by
  refine ⟨fun hnone => ?_, fun room hroom => ⟨fun hfits => ?_, fun hlong => ?_,
    isBoundary_lastBoundary sql room⟩⟩
  · rw [excerpt, hnone]
  · rw [excerpt, hroom]
    exact if_pos hfits
  · refine ⟨_, isLongestStart_takeBytes room sql, ?_, slice?_lastBoundary room sql⟩
    rw [excerpt, hroom]
    exact if_neg (Nat.not_le_of_lt hlong)

/-- A limit between the two bytes of a letter, one of no bytes, one that is long enough, and
none. -/
theorem excerpt_truncates_accented :
    IsLongestStart 5 "abcdé-xyz" "abcd" ∧
      excerpt ⟨false, .debug, some 5⟩ "abcdé-xyz" = "abcd..." ∧
      excerpt ⟨false, .debug, some 0⟩ "é" = "..." ∧
      excerpt ⟨false, .debug, some 2⟩ "é" = "é" ∧ excerpt ⟨false, .debug, none⟩ "é" = "é" := by
  obtain ⟨-, hlimit⟩ := excerpt_truncates ⟨false, .debug, some 5⟩ "abcdé-xyz"
  obtain ⟨-, hinside, -⟩ := hlimit 5 rfl
  obtain ⟨start, hstart, hexcerpt, hslice⟩ := hinside (by decide)
  have hfound : start = "abcd" := by
    have hpart : slice? "abcdé-xyz" 0 (lastBoundary "abcdé-xyz" 5) = some "abcd" := by
      decide +kernel
    exact Option.some.inj (hslice.symm.trans hpart)
  subst hfound
  obtain ⟨-, hlimit⟩ := excerpt_truncates ⟨false, .debug, some 0⟩ "é"
  obtain ⟨-, hnothing, -⟩ := hlimit 0 rfl
  obtain ⟨start, hempty, hdots, -⟩ := hnothing (by decide)
  have hfound : start = "" := String.utf8ByteSize_eq_zero_iff.mp (Nat.le_zero.mp hempty.fits)
  subst hfound
  obtain ⟨-, hlimit⟩ := excerpt_truncates ⟨false, .debug, some 2⟩ "é"
  exact ⟨hstart, hexcerpt, hdots, (hlimit 2 rfl).1 (by decide),
    (excerpt_truncates ⟨false, .debug, none⟩ "é").1 rfl⟩

end Logging

end Rowset
