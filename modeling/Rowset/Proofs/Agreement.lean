import Rowset.Proofs.Commands
import Mathlib.Data.List.Nodup

/-!
# Requests on a scope agree on the rows

What commands mean is said here in the usual way, over an arbitrary database: a reading takes the
rows that meet the clause, in the order that is asked for and otherwise in any, passes over some and
takes some of the rest (`Query.Yields`); a count tells how many rows there are; and a mutation
touches the rows that meet the clause, or those with the row ids that a reading gives
(`Target.Finds`). Two readings of the same text need not give the same rows.

All the same, every request on a scope finds, counts or touches the same number of rows, all of
which meet the clause of the scope (`Request.size_of_commands`).
-/

namespace Rowset

/-- A database whose rows are of one kind. -/
structure Engine (ρ : Type) where
  /-- The physical row id of a row. -/
  place : ρ → ℕ
  /-- Whether a row meets a WHERE clause. -/
  holds : Clause → ρ → Bool
  /-- Whether a row may stand before another one. -/
  before : List (Name × Direction) → ρ → ρ → Bool
  before_trans : ∀ order a b c, before order a b → before order b c → before order a c
  before_total : ∀ order a b, before order a b || before order b a

/-- Holds of the rows that a clause keeps: all, if it has no text. -/
def Engine.keeps {ρ : Type} (e : Engine ρ) (clause : Clause) (row : ρ) : Bool :=
  clause.text.isEmpty || e.holds clause row

/-! ### Pages -/

/-- The rows that are taken after some have been passed over. -/
def page {α : Type} (limit skip : Option ℕ) (rows : List α) : List α :=
  match limit with
  | some n => (rows.drop (skip.getD 0)).take n
  | none => rows.drop (skip.getD 0)

/-- How many rows are taken of so many. -/
def pageSize (limit skip : Option ℕ) (total : ℕ) : ℕ :=
  match limit with
  | some n => min n (total - skip.getD 0)
  | none => total - skip.getD 0

theorem length_page {α : Type} (limit skip : Option ℕ) (rows : List α) :
    (page limit skip rows).length = pageSize limit skip rows.length := by
  cases limit with
  | none => exact List.length_drop
  | some n => rw [page, pageSize, List.length_take, List.length_drop]

theorem page_sublist {α : Type} (limit skip : Option ℕ) (rows : List α) :
    (page limit skip rows).Sublist rows := by
  cases limit with
  | none => exact List.drop_sublist _ rows
  | some n => exact (List.take_sublist n _).trans (List.drop_sublist _ rows)

section Meaning
variable {ρ : Type} (e : Engine ρ) (table : List ρ)

/-- **A reading of a table gives some rows:** those that its clause keeps, arranged by its order if
it has one, and of these a page. -/
def Query.Yields (q : Query) (found : List ρ) : Prop :=
  ∃ arranged : List ρ, arranged.Perm (table.filter (e.keeps q.clause)) ∧
    (q.order ≠ [] → arranged.Pairwise fun a b => e.before q.order a b) ∧
    found = page q.limit q.skip arranged

/-- **The rows that a mutation is about,** in the order of the table. -/
inductive Target.Finds : Target → List ρ → Prop where
  | matching {clause : Clause} : Finds (.matching clause) (table.filter (e.keeps clause))
  | picked {q : Query} {found : List ρ} (h : q.Yields e table found) :
      Finds (.picked q) (table.filter fun row => e.place row ∈ found.map e.place)

/-- What comes of a command. -/
inductive Outcome (ρ : Type) where
  | found (rows : List ρ)
  | counted (n : ℕ)
  | touched (rows : List ρ)

/-- How many rows are found, counted or touched. -/
def Outcome.size : Outcome ρ → ℕ
  | .found rows => rows.length
  | .counted n => n
  | .touched rows => rows.length

/-- The rows that are found or touched. -/
def Outcome.rows : Outcome ρ → List ρ
  | .found rows => rows
  | .counted _ => []
  | .touched rows => rows

/-- **What a command means.** -/
inductive Command.Gives : Command → Outcome ρ → Prop where
  | read {q : Query} {rows : List ρ} (h : q.Yields e table rows) : Gives (.read q) (.found rows)
  | count {name : Name} {clause : Clause} :
      Gives (.count name clause) (.counted (table.filter (e.keeps clause)).length)
  | countRows {q : Query} {rows : List ρ} (h : q.Yields e table rows) :
      Gives (.countRows q) (.counted rows.length)
  | update {name : Name} {assignments : List (Name × Value)} {target : Target} {rows : List ρ}
      (h : target.Finds e table rows) : Gives (.update name assignments target) (.touched rows)
  | delete {name : Name} {target : Target} {rows : List ρ} (h : target.Finds e table rows) :
      Gives (.delete name target) (.touched rows)

variable {e table}

/-! ### Readings -/

namespace Query

variable {q : Query} {found : List ρ}

variable (e table) in
theorem exists_yields (q : Query) : ∃ found, q.Yields e table found := by
  refine ⟨_, (table.filter (e.keeps q.clause)).mergeSort (e.before q.order),
    List.mergeSort_perm _ _, fun _ => ?_, rfl⟩
  exact List.pairwise_mergeSort (e.before_trans q.order) (e.before_total q.order) _

theorem Yields.length (h : q.Yields e table found) :
    found.length = pageSize q.limit q.skip (table.filter (e.keeps q.clause)).length := by
  obtain ⟨arranged, hperm, -, rfl⟩ := h
  rw [length_page, hperm.length_eq]

theorem Yields.mem (h : q.Yields e table found) {row : ρ} (hrow : row ∈ found) :
    row ∈ table ∧ e.keeps q.clause row = true := by
  obtain ⟨arranged, hperm, -, rfl⟩ := h
  exact List.mem_filter.mp (hperm.mem_iff.mp ((page_sublist ..).subset hrow))

theorem Yields.nodup (h : q.Yields e table found) (htable : table.Nodup) : found.Nodup := by
  obtain ⟨arranged, hperm, -, rfl⟩ := h
  exact (page_sublist ..).nodup (hperm.nodup_iff.mpr (htable.filter _))

end Query

/-! ### Mutations -/

/-- The rows with the row ids of a reading are the rows of the reading. -/
theorem perm_filter_place {q : Query} {found : List ρ} (htable : (table.map e.place).Nodup)
    (h : q.Yields e table found) :
    (table.filter fun row => e.place row ∈ found.map e.place).Perm found := by
  have hnodup : table.Nodup := List.Nodup.of_map e.place htable
  refine (List.perm_ext_iff_of_nodup (hnodup.filter _) (h.nodup hnodup)).mpr fun row => ?_
  rw [List.mem_filter, decide_eq_true_iff, List.mem_map]
  constructor
  · rintro ⟨hrow, other, hother, hplace⟩
    -- Two rows of the table with one row id are the same.
    have heq : other = row := List.inj_on_of_nodup_map htable (h.mem hother).1 hrow hplace
    exact heq ▸ hother
  · intro hrow
    exact ⟨(h.mem hrow).1, row, hrow, rfl⟩

namespace Target

variable {rows : List ρ}

theorem exists_finds (t : Target) : ∃ rows, t.Finds e table rows := by
  cases t with
  | matching clause => exact ⟨_, .matching⟩
  | picked q =>
    obtain ⟨found, h⟩ := q.exists_yields e table
    exact ⟨_, .picked h⟩

end Target

/-! ### The commands of a selection -/

namespace Selection

/-- How many rows of a table a selection has. -/
def size (s : Selection) (e : Engine ρ) (table : List ρ) : ℕ :=
  pageSize s.limit s.offset (table.filter (e.keeps s.clause)).length

variable {s : Selection} {rows : List ρ}

theorem length_of_yields {columns : String} {order : List (Name × Direction)}
    (h : (s.query columns order).Yields e table rows) : rows.length = s.size e table :=
  h.length

theorem size_of_not_isLimited (h : s.isLimited = false) :
    s.size e table = (table.filter (e.keeps s.clause)).length := by
  unfold isLimited at h
  rw [Bool.or_eq_false_iff, Option.isSome_eq_false_iff, Option.isNone_iff_eq_none,
    Option.isSome_eq_false_iff, Option.isNone_iff_eq_none] at h
  rw [size, h.1, h.2]
  rfl

theorem length_of_finds (htable : (table.map e.place).Nodup) (h : s.target.Finds e table rows) :
    rows.length = s.size e table := by
  unfold target at h
  split_ifs at h with hlimited
  · cases h with
    | picked h => rw [(perm_filter_place htable h).length_eq, length_of_yields h]
  · cases h
    rw [size_of_not_isLimited (Bool.eq_false_iff.mpr hlimited)]

theorem mem_of_finds (htable : (table.map e.place).Nodup) (h : s.target.Finds e table rows)
    {row : ρ} (hrow : row ∈ rows) : row ∈ table ∧ e.keeps s.clause row = true := by
  unfold target at h
  split_ifs at h
  · cases h with
    | picked h => exact h.mem ((perm_filter_place htable h).mem_iff.mp hrow)
  · cases h
    exact List.mem_filter.mp hrow

end Selection

end Meaning

namespace Request

section Commands
variable {ρ : Type} {e : Engine ρ} {table : List ρ} {s : Selection} {r : Request} {c : Command}

/-- Every command on a scope can be carried out. -/
theorem exists_gives (h : r.Commands s c) : ∃ o, c.Gives e table o := by
  cases h with
  | query | select =>
    obtain ⟨rows, h⟩ := Query.exists_yields e table _
    exact ⟨_, .read h⟩
  | count =>
    unfold Selection.counted
    split_ifs
    · obtain ⟨rows, h⟩ := Query.exists_yields e table _
      exact ⟨_, .countRows h⟩
    · exact ⟨_, .count⟩
  | updateAll =>
    obtain ⟨rows, h⟩ := Target.exists_finds s.target
    exact ⟨_, .update h⟩
  | deleteAll =>
    obtain ⟨rows, h⟩ := Target.exists_finds s.target
    exact ⟨_, .delete h⟩

/-- **Whatever comes of a command on a selection,** it is about as many rows as the selection has,
and about none that its clause does not keep. -/
theorem size_of_commands (htable : (table.map e.place).Nodup) (h : r.Commands s c) {o : Outcome ρ}
    (ho : c.Gives e table o) :
    o.size = s.size e table ∧ ∀ row ∈ o.rows, row ∈ table ∧ e.keeps s.clause row = true := by
  cases h with
  | query | select =>
    cases ho with
    | read ho => exact ⟨Selection.length_of_yields ho, fun row hrow => ho.mem hrow⟩
  | count =>
    unfold Selection.counted at ho
    split_ifs at ho with hlimited
    · cases ho with
      | countRows ho => exact ⟨Selection.length_of_yields ho, fun row hrow => by cases hrow⟩
    · cases ho
      refine ⟨?_, fun row hrow => by cases hrow⟩
      exact (Selection.size_of_not_isLimited (Bool.eq_false_iff.mpr hlimited)).symm
  | updateAll =>
    cases ho with
    | update ho => exact ⟨Selection.length_of_finds htable ho, fun row hrow =>
        Selection.mem_of_finds htable ho hrow⟩
  | deleteAll =>
    cases ho with
    | delete ho => exact ⟨Selection.length_of_finds htable ho, fun row hrow =>
        Selection.mem_of_finds htable ho hrow⟩

end Commands

/-- **All requests on a scope are about the same rows.** -/
theorem requests_agree {scope : Scope} {s : Selection} (hs : scope.selection.result = .ok s) :
    (Name.parse scope.table = .ok s.table ∧ s.limit = scope.limit ∧ s.offset = scope.skip) ∧
    (s.clause.text = "" ∨ ∃ t, s.clause.text = " WHERE " ++ t) ∧
    (∀ (r : Request) (st : Statement), r.scope? = some scope →
      (r.plan = .ok (.send st) ↔ ∃ c, r.Commands s c ∧ st = c.statement)) ∧
    ∀ (ρ : Type) (e : Engine ρ) (table : List ρ), (table.map e.place).Nodup →
      ∀ (r : Request) (c : Command), r.Commands s c → (∃ o, c.Gives e table o) ∧
        ∀ o, c.Gives e table o → o.size = s.size e table ∧
          ∀ row ∈ o.rows, row ∈ table ∧ e.keeps s.clause row = true := by
  have h := Scope.selects_of_result hs
  refine ⟨⟨h.table, h.limit, h.offset⟩, ?_, ?_, ?_⟩
  · show s.whereText = "" ∨ ∃ t, s.whereText = " WHERE " ++ t
    unfold Selection.whereText
    split_ifs
    · exact .inl rfl
    · exact .inr ⟨_, rfl⟩
  · intro r st hscope
    exact plan_eq_send_iff hscope hs
  · intro ρ e table htable r c hc
    exact ⟨exists_gives hc, fun o ho => size_of_commands htable hc ho⟩

/-- A database of numbers, of which the even ones meet every clause with text. -/
def evenRows : Engine ℕ where
  place := id
  holds _ n := n % 2 == 0
  before _ a b := decide (a ≤ b)
  before_trans _ a b c hab hbc := by
    rw [decide_eq_true_iff] at hab hbc ⊢
    omega
  before_total _ a b := by
    rw [Bool.or_eq_true, decide_eq_true_iff, decide_eq_true_iff]
    omega

/-- The fifth row and two more of those that are left by a filter. -/
def pagedScope : Scope :=
  { Scope.ofTable "t" with
    filter := some (.equals "a" (.int 1))
    order := [⟨"b", .descending⟩]
    limit := some 3
    skip := some 4 }

theorem requests_agree_pagedScope :
    ((List.range 10).map evenRows.place).Nodup ∧
    ∃ s : Selection, pagedScope.selection.result = .ok s ∧ s.clause.text = " WHERE \"a\" = ?" ∧
      (∀ o, s.counted.Gives evenRows (List.range 10) o → o.size = 1) ∧
      ∀ o, (Command.delete s.table s.target).Gives evenRows (List.range 10) o → o.size = 1 := by
  have hplaces : ((List.range 10).map evenRows.place).Nodup := by decide
  have hwhere : pagedScope.selection.gives
      (fun s => decide (s.clause.text = " WHERE \"a\" = ?")) = true := by decide +kernel
  obtain ⟨s, hs, hwhere⟩ := Filter.Outcome.exists_of_gives hwhere
  have hwhere := of_decide_eq_true hwhere
  obtain ⟨⟨-, hlimit, hskip⟩, -, -, hagree⟩ := requests_agree hs
  have hsize : s.size evenRows (List.range 10) = 1 := by
    have hkeeps : ∀ n, evenRows.keeps s.clause n = (n % 2 == 0) := by
      intro n
      rw [Engine.keeps, hwhere]
      rfl
    have hall : evenRows.keeps s.clause = fun n => n % 2 == 0 := funext hkeeps
    rw [Selection.size, hlimit, hskip, hall]
    rfl
  have hsizes := hagree ℕ evenRows (List.range 10) hplaces
  refine ⟨hplaces, s, hs, hwhere, fun o ho => ?_, fun o ho => ?_⟩
  · exact ((hsizes (.count pagedScope) _ .count).2 o ho).1.trans hsize
  · exact ((hsizes (.deleteAll pagedScope) _ .deleteAll).2 o ho).1.trans hsize

end Request

end Rowset
