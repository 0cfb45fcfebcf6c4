import Rowset.Proofs.Markers
import Mathlib.Data.List.Basic

/-!
# The values of statements

The values that a statement binds are those of its contents, in text order. A reading, a count and a
removal bind the values of the restriction, a change binds the new values in front of these, and an
addition binds the values of its records, one record after the other
(`Builder.bindings_statement`).
-/

namespace Rowset

namespace Sql

theorem bindings_contents : ∀ pieces : List Piece, bindings (contents pieces) = bindings pieces
  | [] => rfl
  | .words _ :: pieces => bindings_contents pieces
  | .name _ :: pieces => bindings_contents pieces
  | .marker value :: pieces => congrArg (value :: ·) (bindings_contents pieces)
  | .fragment _ values :: pieces => congrArg (values ++ ·) (bindings_contents pieces)

theorem bindings_name (name : Name) (pieces : List Piece) :
    bindings (.name name :: pieces) = bindings pieces := rfl

theorem bindings_map_name {α : Type} (f : α → Name) (xs : List α) :
    bindings (xs.map fun x => .name (f x)) = [] := by
  induction xs with
  | nil => rfl
  | cons x xs ih => rw [List.map_cons, bindings_name, ih]

theorem bindings_map_marker (values : List Value) : bindings (values.map .marker) = values := by
  induction values with
  | nil => rfl
  | cons value values ih => exact congrArg (value :: ·) ih

theorem bindings_flatMap {α : Type} (f : α → List Piece) (xs : List α) :
    bindings (xs.flatMap f) = xs.flatMap fun x => bindings (f x) :=
  List.flatMap_assoc

theorem bindings_joined (separator : String) (parts : List (List Piece)) :
    bindings (joined separator parts) = parts.flatMap bindings := by
  rw [← bindings_contents, contents_joined, bindings_flatMap]
  simp only [bindings_contents]

theorem bindings_words (words : String) (pieces : List Piece) :
    bindings (.words words :: pieces) = bindings pieces := rfl

theorem bindings_parenthesized (pieces : List Piece) :
    bindings (parenthesized pieces) = bindings pieces := by
  rw [← bindings_contents, contents_parenthesized, bindings_contents]

theorem bindings_markers (separator : String) (values : List Value) :
    bindings (joined separator (values.map fun value => [.marker value])) = values := by
  rw [← bindings_contents, contents_markers, bindings_map_marker]

end Sql

/-! ### Values by key -/

namespace Keyed

variable {α : Type}

theorem mem_keys_insert {k key : String} {value : α} {entries : List (String × α)} :
    k ∈ (insert key value entries).map (·.1) ↔ k = key ∨ k ∈ entries.map (·.1) := by
  induction entries with
  | nil => simp [insert]
  | cons entry rest ih =>
    unfold insert
    split_ifs with hlt heq
    · simp
    · rw [heq]
      simp
    · rw [List.map_cons, List.mem_cons, ih, List.map_cons, List.mem_cons]
      exact or_left_comm

theorem mem_keys_foldl_insert {k : String} (new : List (String × α)) {entries : List (String × α)} :
    k ∈ (new.foldl (fun sorted entry => insert entry.1 entry.2 sorted) entries).map (·.1) ↔
      k ∈ new.map (·.1) ∨ k ∈ entries.map (·.1) := by
  induction new generalizing entries with
  | nil => simp
  | cons entry new ih =>
    rw [List.foldl_cons, ih, mem_keys_insert, List.map_cons, List.mem_cons]
    exact or_left_comm.trans or_assoc.symm

theorem mem_keys_ofList {k : String} {entries : List (String × α)} :
    k ∈ (ofList entries).map (·.1) ↔ k ∈ entries.map (·.1) := by
  rw [ofList, mem_keys_foldl_insert]
  simp

theorem lookup_cons (k : String) (entry : String × α) (entries : List (String × α)) :
    (entry :: entries).lookup k = if k = entry.1 then some entry.2 else entries.lookup k := by
  rw [List.lookup_cons]
  by_cases h : k = entry.1
  · rw [if_pos h, beq_iff_eq.mpr h]
  · rw [if_neg h, beq_eq_false_iff_ne.mpr h]

theorem lookup_eq_none {key : String} {entries : List (String × α)}
    (h : ∀ e ∈ entries, key < e.1) : entries.lookup key = none := by
  rw [List.lookup_eq_none_iff]
  intro e he
  exact bne_iff_ne.mpr (String.ne_of_lt (h e he))

/-- A key behind the first one is one of the others. -/
theorem mem_of_mem_cons_of_lt {k key : String} {keys : List String} (h : k ∈ key :: keys)
    (hlt : key < k) : k ∈ keys :=
  (List.mem_cons.mp h).resolve_left (String.ne_of_lt hlt).symm

/-- What some keys look up is all the entries, in order, if both are sorted and no key is left
out. -/
theorem filterMap_lookup {keys : List String} {entries : List (String × α)}
    (hkeys : keys.Pairwise (· < ·)) (h : Sorted entries) (hsub : ∀ e ∈ entries, e.1 ∈ keys) :
    keys.filterMap (fun key => (entries.lookup key).map (key, ·)) = entries := by
  induction keys generalizing entries with
  | nil =>
    cases entries with
    | nil => rfl
    | cons e rest => exact absurd (hsub e List.mem_cons_self) List.not_mem_nil
  | cons key keys ih =>
    obtain ⟨hkey, hkeys⟩ := List.pairwise_cons.mp hkeys
    cases entries with
    | nil => exact (ih hkeys h fun e he => absurd he List.not_mem_nil)
    | cons e rest =>
      obtain ⟨he, hrest⟩ := List.pairwise_cons.mp h
      by_cases heq : e.1 = key
      · -- The key of the first entry comes first; the other entries are looked up behind it.
        have hbehind : ∀ e' ∈ rest, e'.1 ∈ keys := fun e' he' =>
          mem_of_mem_cons_of_lt (hsub e' (List.mem_cons_of_mem _ he')) (heq ▸ he e' he')
        have hskip : keys.filterMap (fun key => ((e :: rest).lookup key).map (key, ·)) =
            keys.filterMap fun key => (rest.lookup key).map (key, ·) := by
          refine List.filterMap_congr fun k hk => ?_
          have hne : k ≠ e.1 := fun h => String.ne_of_lt (hkey k hk) (heq ▸ h.symm)
          rw [List.lookup_cons, beq_false_of_ne hne]
        have hfirst : (e :: rest).lookup key = some e.2 := by
          rw [List.lookup_cons, ← heq, beq_self_eq_true]
        rw [List.filterMap_cons_some (b := e) (by rw [hfirst, ← heq]; rfl), hskip,
          ih hkeys hrest hbehind]
      · -- All entries come behind the key, which looks up nothing.
        have hlt : key < e.1 :=
          hkey e.1 ((List.mem_cons.mp (hsub e List.mem_cons_self)).resolve_left heq)
        have hall : ∀ e' ∈ e :: rest, key < e'.1 := by
          intro e' he'
          rcases List.mem_cons.mp he' with rfl | he'
          · exact hlt
          · exact String.lt_trans hlt (he e' he')
        have hbehind : ∀ e' ∈ e :: rest, e'.1 ∈ keys := fun e' he' =>
          mem_of_mem_cons_of_lt (hsub e' he') (hall e' he')
        rw [List.filterMap_cons_none (by rw [lookup_eq_none hall]; rfl), ih hkeys h hbehind]

/-- The values that are looked up are all the values. -/
theorem flatMap_lookup {keys : List String} {entries : List (String × α)}
    (hkeys : keys.Pairwise (· < ·)) (h : Sorted entries) (hsub : ∀ e ∈ entries, e.1 ∈ keys) :
    keys.flatMap (fun key => (entries.lookup key).toList) = entries.map (·.2) := by
  have hentries := filterMap_lookup hkeys h hsub
  conv_rhs => rw [← hentries]
  rw [List.map_filterMap, List.filterMap_eq_flatMap_toList]
  refine List.flatMap_congr fun key _ => ?_
  cases entries.lookup key <;> rfl

end Keyed

theorem Record.get?_eq_none_iff {r : Record} {key : String} :
    r.get? key = none ↔ key ∉ r.columns := by
  rw [get?, List.lookup_eq_none_iff, columns, List.mem_map, not_exists]
  exact forall_congr' fun e => by rw [not_and, bne_iff_ne, ne_comm]

namespace Insert

theorem sorted_keys (records : List Record) : (keys records).Pairwise (· < ·) :=
  List.pairwise_map.mpr (Keyed.sorted_ofList _)

theorem mem_keys {key : String} {records : List Record} :
    key ∈ keys records ↔ ∃ r ∈ records, key ∈ r.columns := by
  rw [keys, Keyed.mem_keys_ofList, List.map_flatMap, List.mem_flatMap]
  simp only [List.map_map, Function.comp_def, List.map_id']

theorem mem_keys_of_mem {records : List Record} {r : Record} (h : r ∈ records)
    {e : String × Value} (he : e ∈ r.entries) : e.1 ∈ keys records :=
  mem_keys.mpr ⟨r, h, List.mem_map.mpr ⟨e, he, rfl⟩⟩

/-- The keys of some records look up all the entries of each of them. -/
theorem filterMap_get? {records : List Record} {r : Record} (h : r ∈ records) :
    (keys records).filterMap (fun key => (r.get? key).map (key, ·)) = r.entries :=
  Keyed.filterMap_lookup (sorted_keys records) r.sorted fun _ he => mem_keys_of_mem h he

/-- They look up all its values. -/
theorem flatMap_get? {records : List Record} {r : Record} (h : r ∈ records) :
    (keys records).flatMap (fun key => (r.get? key).toList) = r.entries.map (·.2) :=
  Keyed.flatMap_lookup (sorted_keys records) r.sorted fun _ he => mem_keys_of_mem h he

end Insert

/-! ### Conditions and selections -/

namespace Condition

/-- The values of a condition, in text order. -/
def values (c : Condition) : List Value :=
  Sql.bindings c.contents

theorem values_eq_bindings (c : Condition) : c.values = Sql.bindings c.render := by
  rw [values, ← contents_render, Sql.bindings_contents]

theorem bindings_memberContents (members : List Condition) :
    Sql.bindings (memberContents members) = members.flatMap values := by
  rw [memberContents_eq_flatMap, Sql.bindings_flatMap]
  rfl

theorem values_all (members : List Condition) :
    (all members).values = members.flatMap values := by
  rw [values, contents, bindings_memberContents]

theorem values_any (members : List Condition) :
    (any members).values = members.flatMap values := by
  rw [values, contents, bindings_memberContents]

theorem values_not (inner : Condition) : (not inner).values = inner.values := by
  rw [values, contents, values]

theorem values_memberOf (column : Name) (vs : List Value) (negated : Bool) :
    (memberOf column vs negated).values = vs := by
  rw [values, contents]
  split_ifs with h
  · exact (List.isEmpty_iff.mp h).symm
  · exact Sql.bindings_map_marker vs

theorem values_oneOf (column : Name) (vs : List Value) : (oneOf column vs).values = vs := by
  unfold oneOf
  split_ifs with h
  · exact (List.isEmpty_iff.mp h).symm
  · exact values_memberOf column vs false

theorem values_noneOf (column : Name) (vs : List Value) : (noneOf column vs).values = vs := by
  unfold noneOf
  split_ifs with h
  · exact (List.isEmpty_iff.mp h).symm
  · exact values_memberOf column vs true

theorem values_fragment (sql : String) (vs : List Value) : (fragment sql vs).values = vs :=
  List.append_nil vs

end Condition

namespace Selection

/-- The values of the restriction of a selection. -/
def values (s : Selection) : List Value :=
  s.restriction.members.flatMap Condition.values

theorem bindings_contents (s : Selection) : Sql.bindings s.contents = s.values :=
  Condition.bindings_memberContents s.restriction.members

theorem bindings_targetContents (s : Selection) : Sql.bindings s.targetContents = s.values := by
  unfold targetContents
  split_ifs
  · exact bindings_contents s
  · exact bindings_contents s

end Selection

theorem bindings_returningContents (returning : Bool) (table : Name) :
    Sql.bindings (returningContents returning table) = [] := by
  cases returning <;> rfl

/-! ### Statements -/

namespace Builder

/-- **The values of a statement.** -/
def values : Builder → List Value
  | .select q => q.selection.values
  | .count q => q.selection.values
  | .update q => q.assignments.map (·.2) ++ q.selection.values
  | .delete q => q.selection.values
  | .insert q => q.records.flatMap fun r => q.columns.flatMap fun column => (r.get? column.1).toList

theorem bindings_contents : ∀ b : Builder, Sql.bindings b.contents = b.values
  | .select q => by
    show Sql.bindings q.contents = q.selection.values
    rw [Select.contents, Sql.bindings_append, Sql.bindings_append, Sql.bindings_name,
      Selection.bindings_contents, Sql.bindings_map_name, Sql.bindings_map_name, List.nil_append,
      List.append_nil]
  | .count q => by
    show Sql.bindings q.countContents = q.selection.values
    rw [Select.countContents, Sql.bindings_append, Sql.bindings_name, Sql.bindings_name,
      Selection.bindings_contents]
    split_ifs
    · exact List.append_nil _
    · exact List.append_nil _
  | .update q => by
    have hassign : (q.assignments.flatMap fun pair =>
        Sql.bindings [.name pair.1, .marker pair.2]) = q.assignments.map (·.2) :=
      List.map_eq_flatMap.symm
    show Sql.bindings q.contents = _ ++ q.selection.values
    rw [Update.contents, Sql.bindings_append, Sql.bindings_append, Sql.bindings_name,
      Sql.bindings_flatMap, hassign, Selection.bindings_targetContents,
      bindings_returningContents, List.append_nil]
  | .delete q => by
    show Sql.bindings q.contents = q.selection.values
    rw [Delete.contents, Sql.bindings_append, Sql.bindings_name,
      Selection.bindings_targetContents, bindings_returningContents, List.append_nil]
  | .insert q => by
    show Sql.bindings q.contents = q.records.flatMap _
    rw [Insert.contents, Sql.bindings_append, Sql.bindings_append, Sql.bindings_name,
      Sql.bindings_map_name, Sql.bindings_flatMap, bindings_returningContents, List.append_nil,
      List.nil_append]
    simp only [Sql.bindings_flatMap, Sql.bindings_map_marker]

/-- An addition of records binds all their values, one record after the other. -/
theorem values_insert {table : Name} {records : List Record} {names : List Name} {returning : Bool}
    (h : names.length = (Insert.keys records).length) :
    (Builder.insert ⟨table, (Insert.keys records).zip names, records, returning⟩).values =
      records.flatMap fun r => r.entries.map (·.2) := by
  have hkeys : ((Insert.keys records).zip names).map (·.1) = Insert.keys records :=
    List.map_fst_zip (by omega)
  refine List.flatMap_congr fun r hr => ?_
  calc ((Insert.keys records).zip names).flatMap (fun column => (r.get? column.1).toList)
      = (((Insert.keys records).zip names).map (·.1)).flatMap fun key => (r.get? key).toList := by
        rw [List.flatMap_map]
    _ = r.entries.map (·.2) := by rw [hkeys, Insert.flatMap_get? hr]

/-- **A statement binds its values.** -/
theorem bindings_statement (b : Builder) : b.statement.bindings = b.values := by
  show Sql.bindings b.render = b.values
  rw [← Sql.bindings_contents, b.contents_render, b.bindings_contents]

end Builder

end Rowset
