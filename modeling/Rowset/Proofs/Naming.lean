import Rowset.Proofs.Numbering
import Mathlib.Data.List.Nodup

/-!
# Naming markers

A bound statement has a name for each marker of its text and for each of its values.
`Statement.Named` is what is promised of it: the text is the same but for the placeholders between
the segments, the names belong to the values in order, and no name belongs to two. So the `k`-th
marker and the `k`-th value are joined by their name, and by no other.

The text is cut at its markers and put together again (`interleave_splitOn`), and a parameter is
found under the name that it was given when it was appended (`entries_push`), since decimal numbers
tell all names apart (`Parameters.name_inj`).
-/

namespace Rowset

/-! ### Parameters -/

namespace Parameters

/-- A parameter has the name that was next when it was appended. -/
theorem entries_push (ps : Parameters) (value : Value) :
    (ps.push value).entries = ps.entries ++ [(ps.nextName, value)] := by
  simp [entries, push, nextName, List.zipIdx_append]

theorem foldl_push (values : List Value) (ps : Parameters) :
    values.foldl push ps = ⟨ps.values ++ values⟩ := by
  induction values generalizing ps with
  | nil => rw [List.foldl_nil, List.append_nil]
  | cons value values ih =>
    rw [List.foldl_cons, ih, push, List.append_assoc]
    rfl

theorem getElem?_entries (ps : Parameters) (i : Nat) :
    ps.entries[i]? = ps.values[i]?.map fun value => (name i, value) := by
  rw [entries, List.getElem?_map, List.getElem?_zipIdx, Option.map_map, Nat.zero_add]
  rfl

theorem map_fst_entries (ps : Parameters) :
    ps.entries.map (·.1) = (List.range ps.length).map name := by
  have hrange : ps.values.zipIdx.map (·.2) = List.range ps.length := by
    rw [List.zipIdx_map_snd, List.range_eq_range']
    rfl
  rw [← hrange, entries, List.map_map, List.map_map]
  rfl

/-- No two parameters have the same name. -/
theorem nodup_entries (ps : Parameters) : (ps.entries.map (·.1)).Nodup := by
  rw [map_fst_entries]
  exact List.Nodup.map (fun _ _ => name_inj.mp) List.nodup_range

/-- **A value is found by the name of its position,** and by no other text. -/
theorem get?_eq_some_iff {ps : Parameters} {wanted : String} {value : Value} :
    ps.get? wanted = some value ↔ ∃ i, wanted = name i ∧ ps.values[i]? = some value := by
  unfold get?
  constructor
  · intro h
    obtain ⟨before, behind, hentries, -⟩ := List.lookup_eq_some_iff.mp h
    have hat : ps.entries[before.length]? = some (wanted, value) := by
      rw [hentries, List.getElem?_append_right (Nat.le_refl _), Nat.sub_self]
      rfl
    rw [getElem?_entries, Option.map_eq_some_iff] at hat
    obtain ⟨v, hv, heq⟩ := hat
    cases heq
    exact ⟨_, rfl, hv⟩
  · rintro ⟨i, rfl, hv⟩
    have hat : ps.entries[i]? = some (name i, value) := by
      rw [getElem?_entries, hv]
      rfl
    obtain ⟨hi, hget⟩ := List.getElem?_eq_some_iff.mp hat
    refine List.lookup_eq_some_iff.mpr
      ⟨ps.entries.take i, ps.entries.drop (i + 1), ?_, fun p hp => ?_⟩
    · rw [← hget, ← List.drop_eq_getElem_cons, List.take_append_drop]
    · obtain ⟨j, hj, rfl⟩ := List.getElem_of_mem hp
      rw [List.length_take] at hj
      rw [List.getElem_take, getElem_entries ps (by omega), bne_iff_ne, Ne, name_inj]
      omega

end Parameters

namespace Statement

/-! ### The text -/

/-- Puts texts between segments, by their positions. -/
def interleave (write : Nat → List Char) (position : Nat) : List (List Char) → List Char
  | [] => []
  | [segment] => segment
  | segment :: next :: segments =>
    segment ++ write position ++ interleave write (position + 1) (next :: segments)

theorem interleave_cons (write : Nat → List Char) (position : Nat) (segment : List Char)
    {segments : List (List Char)} (h : segments ≠ []) :
    interleave write position (segment :: segments) =
      segment ++ write position ++ interleave write (position + 1) segments := by
  cases segments with
  | nil => exact absurd rfl h
  | cons => rfl

theorem interleave_modifyHead (write : Nat → List Char) (position : Nat) (c : Char)
    {segments : List (List Char)} (h : segments ≠ []) :
    interleave write position (segments.modifyHead (c :: ·)) =
      c :: interleave write position segments := by
  cases segments with
  | nil => exact absurd rfl h
  | cons segment segments => cases segments <;> rfl

/-- **A text that is cut at its markers** is put together again with texts in their places. -/
theorem interleave_splitOn (write : Nat → List Char) (position : Nat) (cs : List Char) :
    interleave write position (cs.splitOn '?') = replaceMarkers write position cs := by
  induction cs generalizing position with
  | nil => rfl
  | cons c cs ih =>
    have hne : cs.splitOn '?' ≠ [] := List.splitOnP_ne_nil _ _
    have hcons : (c :: cs).splitOn '?' = if (c == '?') = true then [] :: cs.splitOn '?'
        else (cs.splitOn '?').modifyHead (c :: ·) :=
      List.splitOnP_cons_eq_if_modifyHead c cs
    rw [hcons, replaceMarkers]
    simp only [beq_iff_eq]
    split_ifs
    · rw [interleave_cons write position [] hne, ih, List.nil_append]
    · rw [interleave_modifyHead write position c hne, ih]

/-! ### Bound statements -/

/-- **The promises on a bound statement.** -/
structure Named (s : Statement) (bound : Bound) : Prop where
  /-- Between the segments of the text stand the placeholders `:param0`, `:param1`, …, in order. -/
  text : bound.sql.toList = interleave placeholder 0 (s.sql.toList.splitOn '?')
  /-- The parameters are the values, appended one after the other. -/
  params : bound.params = s.bindings.foldl Parameters.push Parameters.empty
  /-- The `i`-th value has the `i`-th name. -/
  entries : ∀ i, bound.params.entries[i]? =
    s.bindings[i]?.map fun value => (Parameters.name i, value)
  /-- No name is given twice. -/
  nodup : (bound.params.entries.map (·.1)).Nodup
  /-- A name is found at its position, and no other text is found. -/
  position? : ∀ wanted i, bound.params.position? wanted = some i ↔
    i < s.bindings.length ∧ wanted = Parameters.name i
  /-- A value is found by its name, and none by another text. -/
  get? : ∀ wanted value, bound.params.get? wanted = some value ↔
    ∃ i, wanted = Parameters.name i ∧ s.bindings[i]? = some value

theorem named_of_bind {s : Statement} {bound : Bound} (h : s.bind = .ok bound) :
    s.Named bound := by
  obtain ⟨-, rfl⟩ := bind_eq_ok.mp h
  exact
    { text := by
        rw [interleave_splitOn, ← nameMarkers_eq_replaceMarkers, String.toList_ofList]
      params := (Parameters.foldl_push s.bindings Parameters.empty).symm
      entries := Parameters.getElem?_entries _
      nodup := Parameters.nodup_entries _
      position? := fun _ _ => Parameters.position?_eq_some_iff
      get? := fun _ _ => Parameters.get?_eq_some_iff }

theorem bind_eq_error {s : Statement} {mismatch : Mismatch} :
    s.bind = .error mismatch ↔ s.markerCount ≠ s.bindings.length ∧
      mismatch = ⟨s.markerCount, s.bindings.length⟩ := by
  unfold bind
  split_ifs with h
  · simp [h]
  · simp [h, eq_comm]

/-- **Binding joins markers and values one to one, in order.** It succeeds exactly when there are
as many of the one as of the other, and else tells both numbers. -/
theorem bind_joins (s : Statement) :
    ((∃ bound, s.bind = .ok bound) ↔ s.markerCount = s.bindings.length) ∧
      (∀ mismatch, s.bind = .error mismatch ↔ s.markerCount ≠ s.bindings.length ∧
        mismatch = ⟨s.markerCount, s.bindings.length⟩) ∧
      ∀ bound, s.bind = .ok bound → s.Named bound := by
  refine ⟨⟨?_, fun h => ⟨_, bind_eq_ok.mpr ⟨h, rfl⟩⟩⟩, fun _ => bind_eq_error,
    fun _ => named_of_bind⟩
  rintro ⟨bound, h⟩
  exact (bind_eq_ok.mp h).1

/-- Markers at both ends and beside each other, and letters of several bytes around them. -/
def borderedStatement : Statement :=
  ⟨"?név = ??é AND x = :param1?", [.null, .text "?", .bool true, .text "é"]⟩

theorem bind_joins_borderedStatement :
    ∃ bound, borderedStatement.bind = .ok bound ∧
      bound.sql = ":param0név = :param1:param2é AND x = :param1:param3" ∧
      borderedStatement.Named bound ∧ bound.params.get? "param1" = some (.text "?") ∧
      bound.params.get? "param4" = none := by
  obtain ⟨hok, -, hnamed⟩ := bind_joins borderedStatement
  have hcount : borderedStatement.markerCount = borderedStatement.bindings.length := by
    decide +kernel
  obtain ⟨bound, hbound⟩ := hok.mpr hcount
  obtain ⟨-, rfl⟩ := bind_eq_ok.mp hbound
  exact ⟨_, hbound, by decide +kernel, hnamed _ hbound, by decide +kernel, by decide +kernel⟩

end Statement

end Rowset
