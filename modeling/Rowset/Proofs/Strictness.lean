import Rowset.Json.Source
import Rowset.Proofs.Derivation
import Rowset.Proofs.Notation

/-!
# What a reader of filters takes in

Two structured values that are read as the same filter need not be equal: a fragment has two
spellings for each of its keys, an absent, missing or empty list of values is the same, and an
integer beyond the signed words is the text of its digits. `Json.canonical` undoes all this and
leaves out nothing.

`Filter.ReadFrom` is the grammar that is read. Everything in it finds its way into the filter,
except that a key of a fragment may be there in both spellings, and then the one without `$` is
passed over. These members are `Json.shadows`, and values that are read as one filter have the same
canonical form exactly when they have the same shadows (`Filter.canonical_eq_iff_shadows_eq`).
-/

namespace Rowset

/-! ### Values in order -/

namespace Json

mutual

/-- **Holds of the values in whose objects the keys stand in order,** and none is repeated. -/
def IsOrdered : Json → Prop
  | .array items => AreOrdered items
  | .object members => Keyed.Sorted members ∧ MembersOrdered members
  | _ => True

/-- Holds of the lists of such values. -/
def AreOrdered : List Json → Prop
  | [] => True
  | item :: items => item.IsOrdered ∧ AreOrdered items

/-- Holds of the members with such values. -/
def MembersOrdered : List (String × Json) → Prop
  | [] => True
  | (_, json) :: members => json.IsOrdered ∧ MembersOrdered members

end

theorem membersOrdered_iff {members : List (String × Json)} :
    MembersOrdered members ↔ ∀ e ∈ members, e.2.IsOrdered := by
  induction members with
  | nil => simp [MembersOrdered]
  | cons e members ih => rw [MembersOrdered, ih, List.forall_mem_cons]

namespace Source

theorem mem_of_mem_foldl_insert {new entries : List (String × Json)} {e : String × Json}
    (h : e ∈ new.foldl (fun sorted entry => Keyed.insert entry.1 entry.2 sorted) entries) :
    e ∈ new ∨ e ∈ entries := by
  induction new generalizing entries with
  | nil => exact .inr h
  | cons entry new ih =>
    rcases ih h with h | h
    · exact .inl (List.mem_cons_of_mem entry h)
    · rcases Keyed.mem_insert h with rfl | h
      · exact .inl List.mem_cons_self
      · exact .inr h

mutual

/-- **Every value that is read from a text is ordered.** -/
theorem isOrdered_toJson? : ∀ {room : Nat} {source : Source} {json : Json},
    toJson? room source = some json → json.IsOrdered
  | _, .null, _, h => by
    cases h
    trivial
  | _, .bool _, _, h => by
    cases h
    trivial
  | _, .number n, _, h => by
    obtain ⟨_, -, rfl⟩ := Option.map_eq_some_iff.mp h
    trivial
  | _, .string s, _, h => by
    obtain ⟨_, -, rfl⟩ := Option.map_eq_some_iff.mp h
    trivial
  | 0, .array _, _, h => by cases h
  | room + 1, .array items, _, h => by
    obtain ⟨values, hvalues, rfl⟩ := Option.map_eq_some_iff.mp h
    exact areOrdered_toItems? hvalues
  | 0, .object _, _, h => by cases h
  | room + 1, .object members, _, h => by
    obtain ⟨entries, hentries, rfl⟩ := Option.map_eq_some_iff.mp h
    refine ⟨Keyed.sorted_ofList entries, membersOrdered_iff.mpr fun e he => ?_⟩
    have hall := membersOrdered_iff.mp (membersOrdered_toMembers? hentries)
    exact hall e ((mem_of_mem_foldl_insert he).resolve_right List.not_mem_nil)

theorem areOrdered_toItems? : ∀ {room : Nat} {items : List Source} {values : List Json},
    toItems? room items = some values → AreOrdered values
  | _, [], _, h => by
    cases h
    trivial
  | room, item :: items, _, h => by
    obtain ⟨value, hvalue, h⟩ := Option.bind_eq_some_iff.mp h
    obtain ⟨values, hvalues, h⟩ := Option.bind_eq_some_iff.mp h
    cases h
    exact ⟨isOrdered_toJson? hvalue, areOrdered_toItems? hvalues⟩

theorem membersOrdered_toMembers? : ∀ {room : Nat} {members : List (Option String × Source)}
    {entries : List (String × Json)}, toMembers? room members = some entries →
      MembersOrdered entries
  | _, [], _, h => by
    cases h
    trivial
  | room, (key, item) :: members, _, h => by
    obtain ⟨key, -, h⟩ := Option.bind_eq_some_iff.mp h
    obtain ⟨value, hvalue, h⟩ := Option.bind_eq_some_iff.mp h
    obtain ⟨entries, hentries, h⟩ := Option.bind_eq_some_iff.mp h
    cases h
    exact ⟨isOrdered_toJson? hvalue, membersOrdered_toMembers? hentries⟩

end

end Source

/-! ### Canonical forms -/

open Rowset.Filter (sigilMember?)

/-- The keys of a fragment in both spellings. -/
def fragmentKeys : List String :=
  ["$query", "query", "$bindings", "bindings"]

/-- The members of the fragment that an object is, if it is one. -/
def fragment? : List (String × Json) → Option (List (String × Json))
  | [(op, .object members)] =>
    if op = "$raw" ∧ ∀ e ∈ members, e.1 ∈ fragmentKeys then some members else none
  | _ => none

/-- The member that is spelled without `$` where the same key is there with `$` too. -/
def shadowed (key : String) (members : List (String × Json)) : List (String × Json) :=
  match members.lookup ("$" ++ key), members.lookup key with
  | some _, some json => [(key, json)]
  | _, _ => []

/-- The members of a fragment that are passed over. -/
def shadowedMembers (members : List (String × Json)) : List (String × Json) :=
  shadowed "bindings" members ++ shadowed "query" members

/-- The values of a fragment under their key, and nothing when there are none. -/
def canonicalBindings : Option Json → List (String × Json)
  | none => []
  | some .null => []
  | some (.array []) => []
  | some json => [("$bindings", json)]

/-- The text of a fragment under its key. -/
def canonicalQuery : Option Json → List (String × Json)
  | none => []
  | some json => [("$query", json)]

/-- The members of a fragment with the first of each key spelled with `$`. -/
def canonicalFragment (members : List (String × Json)) : List (String × Json) :=
  canonicalBindings (sigilMember? "bindings" members) ++
    canonicalQuery (sigilMember? "query" members) ++ shadowedMembers members

/-- The members of an object with the spellings of a fragment settled. -/
def canonicalObject (members : List (String × Json)) : List (String × Json) :=
  match fragment? members with
  | some fragment => [("$raw", .object (canonicalFragment fragment))]
  | none => members

/-- A number, or its digits when it is an integer beyond the signed words. -/
def canonicalNumber : Number → Json
  | .integer n =>
    if Text.fitsSigned 64 n then .number (.integer n) else .string (Text.ofInt n)
  | .real x => .number (.real x)

mutual

/-- **A value up to the spellings that say the same.** -/
def canonical : Json → Json
  | .null => .null
  | .bool b => .bool b
  | .number n => canonicalNumber n
  | .string s => .string s
  | .array items => .array (canonicalItems items)
  | .object members => .object (canonicalObject (canonicalMembers members))

/-- The items of an array up to spellings. -/
def canonicalItems : List Json → List Json
  | [] => []
  | item :: items => item.canonical :: canonicalItems items

/-- The members of an object up to the spellings of their values. -/
def canonicalMembers : List (String × Json) → List (String × Json)
  | [] => []
  | (key, json) :: members => (key, json.canonical) :: canonicalMembers members

end

mutual

/-- The members that are passed over in each fragment of a value, one fragment after the other. -/
def shadows : Json → List (List (String × Json))
  | .array items => itemShadows items
  | .object members =>
    match fragment? members with
    | some fragment => [shadowedMembers (canonicalMembers fragment)]
    | none => memberShadows members
  | _ => []

/-- The shadows of the items of an array. -/
def itemShadows : List Json → List (List (String × Json))
  | [] => []
  | item :: items => item.shadows ++ itemShadows items

/-- The shadows of the members of an object. -/
def memberShadows : List (String × Json) → List (List (String × Json))
  | [] => []
  | (_, json) :: members => json.shadows ++ memberShadows members

end

section Members
variable {members : List (String × Json)}

theorem canonicalMembers_eq_map :
    canonicalMembers members = members.map fun e => (e.1, e.2.canonical) := by
  induction members with
  | nil => rfl
  | cons e members ih => rw [canonicalMembers, ih, List.map_cons]

theorem forall_mem_canonicalMembers (P : String → Prop) :
    (∀ e ∈ canonicalMembers members, P e.1) ↔ ∀ e ∈ members, P e.1 := by
  rw [canonicalMembers_eq_map, List.forall_mem_map]

theorem lookup_canonicalMembers (key : String) :
    (canonicalMembers members).lookup key = (members.lookup key).map canonical := by
  induction members with
  | nil => rfl
  | cons e members ih =>
    rw [canonicalMembers, List.lookup_cons, List.lookup_cons, ih]
    split <;> rfl

theorem sigilMember?_canonicalMembers (key : String) :
    sigilMember? key (canonicalMembers members) =
      (sigilMember? key members).map canonical := by
  rw [sigilMember?, sigilMember?, lookup_canonicalMembers, lookup_canonicalMembers,
    Option.map_or]

/-- An object is a fragment only under its operator. -/
theorem fragment?_eq_none (h : ∀ e ∈ members, e.1 ≠ "$raw") : fragment? members = none := by
  unfold fragment?
  split
  · next op inner =>
    exact if_neg fun hraw => h (op, .object inner) List.mem_cons_self hraw.1
  · rfl

theorem fragment?_raw (h : ∀ e ∈ members, e.1 ∈ fragmentKeys) :
    fragment? [("$raw", .object members)] = some members :=
  if_pos ⟨rfl, h⟩

theorem canonicalObject_of_none (h : fragment? members = none) :
    canonicalObject members = members := by
  rw [canonicalObject, h]

theorem shadows_of_none (h : fragment? members = none) :
    (Json.object members).shadows = memberShadows members := by
  rw [shadows, h]

theorem fragment?_entry {key : String} (payload : Json) (h : key ≠ "$raw") :
    fragment? [(key, payload)] = none :=
  fragment?_eq_none fun _ he => List.mem_singleton.mp he ▸ h

theorem fragment?_pair (lower upper : Json) :
    fragment? [("from", lower), ("to", upper)] = none :=
  fragment?_eq_none (by simp)

/-- The bounds of a range are no members of a fragment. -/
theorem fragment?_bounds (column : String) (lower upper : Json) :
    fragment? [(column, .object [("from", lower), ("to", upper)])] = none := by
  have hfrom : "from" ∉ fragmentKeys := by decide
  exact if_neg fun h => hfrom (h.2 ("from", lower) List.mem_cons_self)

/-- The canonical form of a fragment. -/
theorem canonical_raw (h : ∀ e ∈ members, e.1 ∈ fragmentKeys) :
    (Json.object [("$raw", .object members)]).canonical =
      .object [("$raw", .object (canonicalFragment (canonicalMembers members)))] := by
  have hkeys : ∀ e ∈ canonicalMembers members, e.1 ∈ fragmentKeys :=
    (forall_mem_canonicalMembers (· ∈ fragmentKeys)).mpr h
  have hinner : fragment? (canonicalMembers members) = none :=
    fragment?_eq_none fun e he hraw => absurd (hraw ▸ hkeys e he) (by decide)
  rw [canonical, canonicalMembers, canonicalMembers, canonical, canonicalObject_of_none hinner,
    canonicalObject, fragment?_raw hkeys]

theorem shadows_raw (h : ∀ e ∈ members, e.1 ∈ fragmentKeys) :
    (Json.object [("$raw", .object members)]).shadows =
      [shadowedMembers (canonicalMembers members)] := by
  rw [shadows, fragment?_raw h]

end Members

section Entry
variable {key : String} {payload : Json}

/-- An object with one entry that is no fragment. -/
theorem canonical_entry (h : fragment? [(key, payload.canonical)] = none) :
    (Json.object [(key, payload)]).canonical = .object [(key, payload.canonical)] := by
  rw [canonical, canonicalMembers, canonicalMembers, canonicalObject_of_none h]

theorem shadows_entry (h : fragment? [(key, payload)] = none) :
    (Json.object [(key, payload)]).shadows = payload.shadows := by
  rw [shadows_of_none h, memberShadows, memberShadows, List.append_nil]

/-- The operators that are not of a fragment pass on their payload. -/
theorem canonical_operator (h : key ≠ "$raw") :
    (Json.object [(key, payload)]).canonical = .object [(key, payload.canonical)] :=
  canonical_entry (fragment?_entry _ h)

theorem shadows_operator (h : key ≠ "$raw") :
    (Json.object [(key, payload)]).shadows = payload.shadows :=
  shadows_entry (fragment?_entry _ h)

end Entry

/-- Two values that differ in their shadows, or not at all. -/
structure ApartByShadows (a b : Json) : Prop where
  length_eq : a.shadows.length = b.shadows.length
  canonical_eq_iff : a.canonical = b.canonical ↔ a.shadows = b.shadows

namespace ApartByShadows

variable {a b : Json} {as bs : List Json}

theorem of_eq (hcanonical : a.canonical = b.canonical) (hshadows : a.shadows = b.shadows) :
    a.ApartByShadows b :=
  ⟨by rw [hshadows], iff_of_true hcanonical hshadows⟩

theorem operator {key : String} (h : a.ApartByShadows b) (hkey : key ≠ "$raw") :
    (Json.object [(key, a)]).ApartByShadows (.object [(key, b)]) := by
  constructor
  · rw [shadows_operator hkey, shadows_operator hkey, h.length_eq]
  · rw [shadows_operator hkey, shadows_operator hkey, canonical_operator hkey,
      canonical_operator hkey, ← h.canonical_eq_iff]
    simp

theorem cons (h : a.ApartByShadows b) (hs : (Json.array as).ApartByShadows (.array bs)) :
    (Json.array (a :: as)).ApartByShadows (.array (b :: bs)) := by
  have hlength := hs.length_eq
  have hiff := hs.canonical_eq_iff
  simp only [shadows, canonical, Json.array.injEq] at hlength hiff
  constructor
  · simp only [shadows, itemShadows, List.length_append, h.length_eq, hlength]
  · simp only [shadows, itemShadows, canonical, canonicalItems, Json.array.injEq, List.cons.injEq,
      h.canonical_eq_iff, hiff]
    constructor
    · rintro ⟨hfirst, hrest⟩
      rw [hfirst, hrest]
    · -- The first items have equally many fragments, so the lists fall apart at the same place.
      exact fun heq => List.append_inj heq h.length_eq

/-- Where nothing is passed over, there is no difference. -/
theorem canonical_eq (h : a.ApartByShadows b) (ha : ∀ s ∈ a.shadows, s = [])
    (hb : ∀ s ∈ b.shadows, s = []) : a.canonical = b.canonical := by
  refine h.canonical_eq_iff.mpr ?_
  rw [List.eq_replicate_of_mem ha, List.eq_replicate_of_mem hb, h.length_eq]

end ApartByShadows

end Json

namespace Keyed

variable {α : Type}

/-- Of two keys, entries in order can hold no more than one entry each. -/
theorem eq_pair_of_sorted {key key' : String} {value value' : α} {entries : List (String × α)}
    (h : Sorted entries) (hlt : key < key') (hkeys : ∀ e ∈ entries, e.1 = key ∨ e.1 = key')
    (hkey : (key, value) ∈ entries) (hkey' : (key', value') ∈ entries) :
    entries = [(key, value), (key', value')] := by
  cases entries with
  | nil => cases hkey
  | cons first rest =>
    obtain ⟨hfirst, hrest⟩ := List.pairwise_cons.mp h
    -- The smaller key cannot stand behind the other one, so it is the first.
    obtain rfl : (key, value) = first := by
      refine (List.mem_cons.mp hkey).resolve_right fun hlater => ?_
      have hlt' : first.1 < key := hfirst _ hlater
      rcases hkeys first List.mem_cons_self with heq | heq
      · exact String.ne_of_lt hlt' heq
      · exact String.lt_asymm hlt (heq ▸ hlt')
    have hin := (List.mem_cons.mp hkey').resolve_left fun heq =>
      String.ne_of_lt hlt (Prod.mk.inj heq).1.symm
    have hlast : ∀ e ∈ rest, e.1 = key' := fun e he =>
      (hkeys e (List.mem_cons_of_mem _ he)).resolve_left (String.ne_of_lt (hfirst e he)).symm
    cases rest with
    | nil => cases hin
    | cons second rest =>
      obtain ⟨hsecond, -⟩ := List.pairwise_cons.mp hrest
      have hnone : ∀ e, e ∉ rest := fun e he => by
        have hlt' := hsecond e he
        rw [hlast second List.mem_cons_self, hlast e (List.mem_cons_of_mem _ he)] at hlt'
        exact String.lt_irrefl key' hlt'
      obtain rfl := List.eq_nil_iff_forall_not_mem.mpr hnone
      rw [List.mem_singleton.mp hin]

end Keyed

namespace Value

/-- **A value has one canonical form.** -/
theorem canonical_of_ofJson? {json : Json} {v : Value} (h : ofJson? json = some v) :
    json.canonical = v.toJson ∧ json.shadows = [] := by
  cases json with
  | null | bool | string =>
    cases h
    exact ⟨rfl, rfl⟩
  | number n =>
    cases h
    refine ⟨?_, rfl⟩
    cases n with
    | real => rfl
    | integer n =>
      rw [Json.canonical, Json.canonicalNumber, ofNumber]
      split
      · next hfits =>
        rw [Text.fitsSigned, Bool.and_eq_true, decide_eq_true_iff, decide_eq_true_iff] at hfits
        rw [toJson, Int64.toInt_ofInt_of_le hfits.1 hfits.2]
      · rfl
  | array | object => cases h

theorem fragment?_of_ofJson? (column : String) {json : Json} {v : Value}
    (h : ofJson? json = some v) : Json.fragment? [(column, json)] = none := by
  cases json with
  | object => cases h
  | _ => rfl

theorem fragment?_toJson (column : String) (v : Value) :
    Json.fragment? [(column, v.toJson)] = none := by
  cases v <;> rfl

theorem canonicalItems_of_forall₂ {values : List Value} {items : List Json}
    (h : List.Forall₂ (fun json v => ofJson? json = some v) items values) :
    Json.canonicalItems items = values.map toJson ∧ Json.itemShadows items = [] := by
  induction h with
  | nil => exact ⟨rfl, rfl⟩
  | cons hvalue _ ih =>
    obtain ⟨hcanonical, hshadows⟩ := canonical_of_ofJson? hvalue
    rw [Json.canonicalItems, Json.itemShadows, hcanonical, hshadows, ih.1, ih.2]
    exact ⟨rfl, rfl⟩

end Value

namespace Filter

/-! ### What is read -/

/-- The values of a fragment are left out, missing, or a list. -/
inductive BindingsReadFrom : List Value → Option Json → Prop where
  | absent : BindingsReadFrom [] none
  | missing : BindingsReadFrom [] (some .null)
  | list {values : List Value} {items : List Json}
      (h : List.Forall₂ (fun json v => Value.ofJson? json = some v) items values) :
      BindingsReadFrom values (some (.array items))

mutual

/-- **A structured value is read as a filter.** -/
inductive ReadFrom : Filter → Json → Prop where
  | properties {record : Record} {members : List (String × Json)}
      (hplain : members.any (fun e => isOperator e.1) = false)
      (h : List.Forall₂ (fun e entry => e.1 = entry.1 ∧ Value.ofJson? e.2 = some entry.2)
        members record.entries) : ReadFrom (.properties record) (.object members)
  | all {members : List Filter} {items : List Json} (h : EachReadFrom members items) :
      ReadFrom (.all members) (.object [("$and", .array items)])
  | any {members : List Filter} {items : List Json} (h : EachReadFrom members items) :
      ReadFrom (.any members) (.object [("$or", .array items)])
  | not {inner : Filter} {json : Json} (h : ReadFrom inner json) :
      ReadFrom (.not inner) (.object [("$not", json)])
  | oneOf {column : String} {values : List Value} {items : List Json}
      (h : List.Forall₂ (fun json v => Value.ofJson? json = some v) items values) :
      ReadFrom (.oneOf column values) (.object [("$in", .object [(column, .array items)])])
  | noneOf {column : String} {values : List Value} {items : List Json}
      (h : List.Forall₂ (fun json v => Value.ofJson? json = some v) items values) :
      ReadFrom (.noneOf column values) (.object [("$notIn", .object [(column, .array items)])])
  | missing {column : String} : ReadFrom (.missing column) (.object [("$null", .string column)])
  | present {column : String} : ReadFrom (.present column) (.object [("$notNull", .string column)])
  | between {column : String} {low high : Value} {lower upper : Json}
      (hlow : Value.ofJson? lower = some low) (hhigh : Value.ofJson? upper = some high) :
      ReadFrom (.between column low high)
        (.object [("$between", .object [(column, .object [("from", lower), ("to", upper)])])])
  | outside {column : String} {low high : Value} {lower upper : Json}
      (hlow : Value.ofJson? lower = some low) (hhigh : Value.ofJson? upper = some high) :
      ReadFrom (.outside column low high)
        (.object [("$notBetween", .object [(column, .object [("from", lower), ("to", upper)])])])
  | bounded {side : Side} {column : String} {value : Value} {json : Json}
      (h : Value.ofJson? json = some value) :
      ReadFrom (.bounded side column value) (.object [(operator side, .object [(column, json)])])
  | fragment {sql : String} {bindings : List Value} {members : List (String × Json)}
      (hkeys : ∀ e ∈ members, e.1 ∈ Json.fragmentKeys)
      (hquery : sigilMember? "query" members = some (.string sql))
      (hbindings : BindingsReadFrom bindings (sigilMember? "bindings" members)) :
      ReadFrom (.fragment sql bindings) (.object [("$raw", .object members)])

/-- Structured values are read as filters, one by one. -/
inductive EachReadFrom : List Filter → List Json → Prop where
  | nil : EachReadFrom [] []
  | cons {member : Filter} {members : List Filter} {item : Json} {items : List Json}
      (h : ReadFrom member item) (hs : EachReadFrom members items) :
      EachReadFrom (member :: members) (item :: items)

end

theorem readScalar_eq_ok {op column : String} {json : Json} {v : Value}
    (h : readScalar op column json = .ok v) : Value.ofJson? json = some v := by
  unfold readScalar at h
  split at h
  · next hvalue =>
    cases h
    exact hvalue
  · cases h

theorem readScalars_eq_ok {op column : String} {json : Json} {values : List Value}
    (h : readScalars op column json = .ok values) : ∃ items, json = .array items ∧
      List.Forall₂ (fun json v => Value.ofJson? json = some v) items values := by
  cases json with
  | array items => exact ⟨items, rfl, (forall₂_of_mapM h).imp fun _ _ => readScalar_eq_ok⟩
  | _ => cases h

theorem readEntry_eq_ok {op : String} {payload : Json} {entry : String × Json}
    (h : readEntry op payload = .ok entry) : payload = .object [entry] := by
  unfold readEntry at h
  split at h
  · cases h
    rfl
  · cases h
  · cases h

theorem readMembership_eq_ok {op : String} {payload : Json} {column : String}
    {values : List Value} (h : readMembership op payload = .ok (column, values)) :
    ∃ items, payload = .object [(column, .array items)] ∧
      List.Forall₂ (fun json v => Value.ofJson? json = some v) items values := by
  obtain ⟨⟨_, list⟩, hentry, h⟩ := bind_eq_ok.mp h
  obtain ⟨_, hvalues, h⟩ := bind_eq_ok.mp h
  cases h
  obtain ⟨items, rfl, hitems⟩ := readScalars_eq_ok hvalues
  exact ⟨items, readEntry_eq_ok hentry, hitems⟩

theorem readComparison_eq_ok {op : String} {payload : Json} {column : String} {value : Value}
    (h : readComparison op payload = .ok (column, value)) :
    ∃ json, payload = .object [(column, json)] ∧ Value.ofJson? json = some value := by
  obtain ⟨⟨_, json⟩, hentry, h⟩ := bind_eq_ok.mp h
  obtain ⟨_, hvalue, h⟩ := bind_eq_ok.mp h
  cases h
  exact ⟨json, readEntry_eq_ok hentry, readScalar_eq_ok hvalue⟩

theorem readColumn_eq_ok {op : String} {payload : Json} {column : String}
    (h : readColumn op payload = .ok column) : payload = .string column := by
  cases payload with
  | string =>
    cases h
    rfl
  | _ => cases h

theorem readBound_eq_ok {op column key : String} {bounds : List (String × Json)} {v : Value}
    (h : readBound op column key bounds = .ok v) :
    ∃ json, (key, json) ∈ bounds ∧ Value.ofJson? json = some v := by
  unfold readBound at h
  split at h
  · next json hlookup =>
    obtain ⟨before, behind, rfl, -⟩ := List.lookup_eq_some_iff.mp hlookup
    exact ⟨json, List.mem_append_right before List.mem_cons_self, readScalar_eq_ok h⟩
  · cases h

/-- A range is read from its two bounds with nothing beside them. -/
theorem readRange_eq_ok {op : String} {payload : Json} {column : String} {low high : Value}
    (h : readRange op payload = .ok (column, low, high)) (hordered : payload.IsOrdered) :
    ∃ lower upper, payload = .object [(column, .object [("from", lower), ("to", upper)])] ∧
      Value.ofJson? lower = some low ∧ Value.ofJson? upper = some high := by
  obtain ⟨⟨_, json⟩, hentry, hrange⟩ := bind_eq_ok.mp h
  obtain rfl := readEntry_eq_ok hentry
  dsimp only at hrange
  split at hrange
  · next bounds =>
    split at hrange
    · cases hrange
    · next hfind =>
      obtain ⟨_, hlow, hrange⟩ := bind_eq_ok.mp hrange
      obtain ⟨_, hhigh, hrange⟩ := bind_eq_ok.mp hrange
      cases hrange
      obtain ⟨lower, hlower, hlow⟩ := readBound_eq_ok hlow
      obtain ⟨upper, hupper, hhigh⟩ := readBound_eq_ok hhigh
      have hkeys : ∀ e ∈ bounds, e.1 = "from" ∨ e.1 = "to" := by
        intro e he
        have hknown := List.find?_eq_none.mp hfind e he
        simpa [Decidable.or_iff_not_imp_left] using hknown
      have hsorted : Keyed.Sorted bounds := hordered.2.1.1
      rw [Keyed.eq_pair_of_sorted hsorted (by decide) hkeys hlower hupper]
      exact ⟨lower, upper, rfl, hlow, hhigh⟩
  · cases hrange

theorem readFragment_eq_ok {payload : Json} {f : Filter} (h : readFragment payload = .ok f) :
    ReadFrom f (.object [("$raw", payload)]) := by
  unfold readFragment at h
  split at h
  · next members =>
    dsimp only at h
    split at h
    · cases h
    · next hfind =>
      have hkeys : ∀ e ∈ members, e.1 ∈ Json.fragmentKeys := by
        intro e he
        have hknown := List.find?_eq_none.mp hfind e he
        rw [Bool.not_eq_true', Bool.not_eq_false] at hknown
        exact List.contains_iff_mem.mp hknown
      split at h
      · next sql hquery =>
        split at h
        · next hbindings =>
          cases h
          exact .fragment hkeys hquery (hbindings ▸ .absent)
        · next hbindings =>
          cases h
          exact .fragment hkeys hquery (hbindings ▸ .missing)
        · next list hnull hbindings =>
          obtain ⟨values, hvalues, rfl⟩ := map_eq_ok.mp h
          obtain ⟨items, rfl, hitems⟩ := readScalars_eq_ok hvalues
          exact .fragment hkeys hquery (hbindings ▸ .list hitems)
      · cases h
  · cases h

theorem readProperties_eq_ok {members : List (String × Json)} {f : Filter}
    (h : readProperties members = .ok f) (hplain : members.any (fun e => isOperator e.1) = false)
    (hsorted : Keyed.Sorted members) : ReadFrom f (.object members) := by
  obtain ⟨entries, hentries, h⟩ := bind_eq_ok.mp h
  cases h
  have hall : List.Forall₂ (fun e entry => e.1 = entry.1 ∧ Value.ofJson? e.2 = some entry.2)
      members entries := by
    refine (forall₂_of_mapM hentries).imp fun e entry he => ?_
    obtain ⟨value, hvalue, he⟩ := bind_eq_ok.mp he
    cases he
    exact ⟨rfl, readScalar_eq_ok hvalue⟩
  -- The record keeps the entries as they are, since the members stand in order.
  have hcolumns : Keyed.Sorted entries := by
    have hkeys : members.map Prod.fst = entries.map Prod.fst := by
      rw [← List.forall₂_eq_eq_eq, List.forall₂_map_left_iff, List.forall₂_map_right_iff]
      exact hall.imp fun _ _ h => h.1
    rw [Keyed.Sorted, ← List.pairwise_map, ← hkeys]
    exact List.pairwise_map.mpr hsorted
  refine .properties hplain ?_
  show List.Forall₂ _ members (Keyed.ofList entries)
  rw [Keyed.ofList_of_sorted hcolumns]
  exact hall

theorem readBounded_eq_ok (side : Side) {payload : Json} {f : Filter}
    (h : ((readComparison (operator side) payload).map fun (column, value) =>
      Filter.bounded side column value) = .ok f) :
    ReadFrom f (.object [(operator side, payload)]) := by
  obtain ⟨⟨column, value⟩, hread, rfl⟩ := map_eq_ok.mp h
  obtain ⟨json, rfl, hvalue⟩ := readComparison_eq_ok hread
  exact .bounded hvalue

theorem readOperator_eq_ok {op : String} {payload : Json} {f : Filter}
    (h : readOperator op payload = .ok f) (hordered : payload.IsOrdered) :
    ReadFrom f (.object [(op, payload)]) := by
  unfold readOperator at h
  split at h
  · obtain ⟨⟨column, values⟩, hread, rfl⟩ := map_eq_ok.mp h
    obtain ⟨items, rfl, hitems⟩ := readMembership_eq_ok hread
    exact .oneOf hitems
  · obtain ⟨⟨column, values⟩, hread, rfl⟩ := map_eq_ok.mp h
    obtain ⟨items, rfl, hitems⟩ := readMembership_eq_ok hread
    exact .noneOf hitems
  · obtain ⟨column, hread, rfl⟩ := map_eq_ok.mp h
    obtain rfl := readColumn_eq_ok hread
    exact .missing
  · obtain ⟨column, hread, rfl⟩ := map_eq_ok.mp h
    obtain rfl := readColumn_eq_ok hread
    exact .present
  · obtain ⟨⟨column, low, high⟩, hread, rfl⟩ := map_eq_ok.mp h
    obtain ⟨lower, upper, rfl, hlow, hhigh⟩ := readRange_eq_ok hread hordered
    exact .between hlow hhigh
  · obtain ⟨⟨column, low, high⟩, hread, rfl⟩ := map_eq_ok.mp h
    obtain ⟨lower, upper, rfl, hlow, hhigh⟩ := readRange_eq_ok hread hordered
    exact .outside hlow hhigh
  · exact readBounded_eq_ok .above h
  · exact readBounded_eq_ok .atLeast h
  · exact readBounded_eq_ok .below h
  · exact readBounded_eq_ok .atMost h
  · exact readFragment_eq_ok h
  · cases h
  · cases h

mutual

/-- **Whatever is read as a filter is in the grammar.** -/
theorem readFrom_of_ofJson : ∀ {json : Json} {f : Filter}, ofJson json = .ok f → json.IsOrdered →
    ReadFrom f json
  | .object members, f, h, hordered => by
    cases hany : members.any fun e => isOperator e.1 with
    | false =>
      rw [ofJson_plain hany] at h
      exact readProperties_eq_ok h hany hordered.1
    | true =>
      unfold ofJson at h
      rw [if_pos hany] at h
      split at h
      · obtain ⟨filters, hfilters, rfl⟩ := map_eq_ok.mp h
        exact .all (eachReadFrom_of_ofItems hfilters hordered.2.1)
      · obtain ⟨filters, hfilters, rfl⟩ := map_eq_ok.mp h
        exact .any (eachReadFrom_of_ofItems hfilters hordered.2.1)
      · cases h
      · cases h
      · obtain ⟨inner, hinner, rfl⟩ := map_eq_ok.mp h
        exact .not (readFrom_of_ofJson hinner hordered.2.1)
      · exact readOperator_eq_ok h hordered.2.1
      · cases h

theorem eachReadFrom_of_ofItems : ∀ {items : List Json} {members : List Filter},
    ofItems items = .ok members → Json.AreOrdered items → EachReadFrom members items
  | [], members, h, _ => by
    rw [ofItems] at h
    cases h
    exact .nil
  | item :: items, members, h, hordered => by
    rw [ofItems] at h
    obtain ⟨member, hmember, h⟩ := bind_eq_ok.mp h
    obtain ⟨rest, hrest, h⟩ := bind_eq_ok.mp h
    cases h
    exact .cons (readFrom_of_ofJson hmember hordered.1) (eachReadFrom_of_ofItems hrest hordered.2)

end

/-! ### What makes the difference -/

theorem forall_ne_raw {members : List (String × Json)}
    (h : members.any (fun e => isOperator e.1) = false) : ∀ e ∈ members, e.1 ≠ "$raw" := by
  rw [List.any_eq_false] at h
  exact fun e he hraw => h e he (hraw ▸ (by decide : isOperator "$raw" = true))

theorem canonicalMembers_of_forall₂ {entries : List (String × Value)}
    {members : List (String × Json)}
    (h : List.Forall₂ (fun e entry => e.1 = entry.1 ∧ Value.ofJson? e.2 = some entry.2)
      members entries) :
    Json.canonicalMembers members = entries.map (fun e => (e.1, e.2.toJson)) ∧
      Json.memberShadows members = [] := by
  induction h with
  | nil => exact ⟨rfl, rfl⟩
  | @cons e entry _ _ hentry _ ih =>
    obtain ⟨hcanonical, hshadows⟩ := Value.canonical_of_ofJson? hentry.2
    rw [Json.canonicalMembers, Json.memberShadows, hcanonical, hshadows, ih.1, ih.2, hentry.1]
    exact ⟨rfl, rfl⟩

/-- Values that are left out, missing or empty are the same. -/
theorem canonicalBindings_of_readFrom {bindings : List Value} {json? : Option Json}
    (h : BindingsReadFrom bindings json?) :
    Json.canonicalBindings (json?.map Json.canonical) =
      Json.canonicalBindings (some (.array (bindings.map Value.toJson))) := by
  cases h with
  | absent | missing => rfl
  | list h =>
    rw [Option.map_some, Json.canonical, (Value.canonicalItems_of_forall₂ h).1]

theorem canonical_range (column : String) {low high : Value} {lower upper : Json}
    (hlow : Value.ofJson? lower = some low) (hhigh : Value.ofJson? upper = some high) :
    (Json.object [(column, .object [("from", lower), ("to", upper)])]).canonical =
        .object [(column, .object [("from", low.toJson), ("to", high.toJson)])] ∧
      (Json.object [(column, .object [("from", lower), ("to", upper)])]).shadows = [] := by
  obtain ⟨hlower, hlower'⟩ := Value.canonical_of_ofJson? hlow
  obtain ⟨hupper, hupper'⟩ := Value.canonical_of_ofJson? hhigh
  have hbounds : (Json.object [("from", lower), ("to", upper)]).canonical =
      .object [("from", low.toJson), ("to", high.toJson)] := by
    rw [Json.canonical, Json.canonicalMembers, Json.canonicalMembers, Json.canonicalMembers, hlower,
      hupper, Json.canonicalObject_of_none (Json.fragment?_pair _ _)]
  constructor
  · rw [Json.canonical_entry, hbounds]
    rw [hbounds]
    exact Json.fragment?_bounds column _ _
  · rw [Json.shadows_entry (Json.fragment?_bounds column _ _),
      Json.shadows_of_none (Json.fragment?_pair _ _),
      Json.memberShadows, Json.memberShadows, Json.memberShadows, hlower', hupper']
    rfl

/-- The canonical form of a fragment says what is read and what is passed over. -/
theorem canonicalFragment_of_readFrom {sql : String} {bindings : List Value}
    {members : List (String × Json)} (hquery : sigilMember? "query" members = some (.string sql))
    (hbindings : BindingsReadFrom bindings (sigilMember? "bindings" members)) :
    Json.canonicalFragment (Json.canonicalMembers members) =
      Json.canonicalBindings (some (.array (bindings.map Value.toJson))) ++
        [("$query", .string sql)] ++ Json.shadowedMembers (Json.canonicalMembers members) := by
  rw [Json.canonicalFragment, Json.sigilMember?_canonicalMembers,
    Json.sigilMember?_canonicalMembers, canonicalBindings_of_readFrom hbindings, hquery]
  rfl

/-- Holds of the filters that hold no other filter and no fragment. -/
def isFlat : Filter → Bool
  | .all _ => false
  | .any _ => false
  | .not _ => false
  | .fragment .. => false
  | .deferred .. => false
  | _ => true

/-- **A filter that is flat has one canonical form.** -/
theorem ReadFrom.canonical_of_isFlat {f : Filter} {json : Json} (h : ReadFrom f json)
    (hflat : f.isFlat = true) : json.canonical = f.toJson true ∧ json.shadows = [] := by
  cases h with
  | @properties record members hplain h =>
    obtain ⟨hcanonical, hshadows⟩ := canonicalMembers_of_forall₂ h
    have hraw := forall_ne_raw hplain
    have hnone : Json.fragment? (Json.canonicalMembers members) = none :=
      Json.fragment?_eq_none ((Json.forall_mem_canonicalMembers (· ≠ "$raw")).mpr hraw)
    rw [Json.canonical, Json.canonicalObject_of_none hnone, hcanonical,
      Json.shadows_of_none (Json.fragment?_eq_none hraw), hshadows, toJson]
    exact ⟨rfl, rfl⟩
  | oneOf h | noneOf h =>
    obtain ⟨hcanonical, hshadows⟩ := Value.canonicalItems_of_forall₂ h
    rw [Json.canonical_operator (by decide), Json.canonical_entry rfl, Json.canonical, hcanonical,
      Json.shadows_operator (by decide), Json.shadows_entry rfl, Json.shadows, hshadows, toJson]
    exact ⟨rfl, rfl⟩
  | missing | present => exact ⟨rfl, rfl⟩
  | @between column low high lower upper hlow hhigh
  | @outside column low high lower upper hlow hhigh =>
    have hrange := canonical_range column hlow hhigh
    rw [Json.canonical_operator (by decide), Json.shadows_operator (by decide), hrange.1, hrange.2,
      toJson]
    exact ⟨rfl, rfl⟩
  | @bounded side column value json h =>
    have hside : operator side ≠ "$raw" := by cases side <;> decide
    obtain ⟨hcanonical, hshadows⟩ := Value.canonical_of_ofJson? h
    have hnone : Json.fragment? [(column, json.canonical)] = none := by
      rw [hcanonical]
      exact Value.fragment?_toJson column value
    rw [Json.canonical_operator hside, Json.canonical_entry hnone, hcanonical,
      Json.shadows_operator hside, Json.shadows_entry (Value.fragment?_of_ofJson? column h),
      hshadows, toJson]
    exact ⟨rfl, rfl⟩
  | all | any | not | fragment => cases hflat

theorem ReadFrom.apart_of_isFlat {f : Filter} {a b : Json} (ha : ReadFrom f a)
    (hb : ReadFrom f b) (hflat : f.isFlat = true) : a.ApartByShadows b := by
  obtain ⟨hcanonical, hshadows⟩ := ha.canonical_of_isFlat hflat
  obtain ⟨hcanonical', hshadows'⟩ := hb.canonical_of_isFlat hflat
  exact .of_eq (hcanonical.trans hcanonical'.symm) (hshadows.trans hshadows'.symm)

mutual

/-- Values that are read as the same filter differ in their shadows, or not at all. -/
theorem ReadFrom.apart : ∀ {f : Filter} {a b : Json}, ReadFrom f a → ReadFrom f b →
    a.ApartByShadows b
  | .all _, _, _, .all ha, .all hb => (ha.apart hb).operator (by decide)
  | .any _, _, _, .any ha, .any hb => (ha.apart hb).operator (by decide)
  | .not _, _, _, .not ha, .not hb => (ha.apart hb).operator (by decide)
  | .fragment sql bindings, _, _, .fragment hkeys hquery hbindings,
      .fragment hkeys' hquery' hbindings' => by
    constructor
    · rw [Json.shadows_raw hkeys, Json.shadows_raw hkeys']
      rfl
    · rw [Json.shadows_raw hkeys, Json.shadows_raw hkeys', Json.canonical_raw hkeys,
        Json.canonical_raw hkeys', canonicalFragment_of_readFrom hquery hbindings,
        canonicalFragment_of_readFrom hquery' hbindings']
      simp
  | .properties _, _, _, ha, hb => ha.apart_of_isFlat hb rfl
  | .oneOf .., _, _, ha, hb => ha.apart_of_isFlat hb rfl
  | .noneOf .., _, _, ha, hb => ha.apart_of_isFlat hb rfl
  | .missing _, _, _, ha, hb => ha.apart_of_isFlat hb rfl
  | .present _, _, _, ha, hb => ha.apart_of_isFlat hb rfl
  | .between .., _, _, ha, hb => ha.apart_of_isFlat hb rfl
  | .outside .., _, _, ha, hb => ha.apart_of_isFlat hb rfl
  | .bounded .., _, _, ha, hb => ha.apart_of_isFlat hb rfl

theorem EachReadFrom.apart : ∀ {members : List Filter} {items items' : List Json},
    EachReadFrom members items → EachReadFrom members items' →
      (Json.array items).ApartByShadows (.array items')
  | [], _, _, .nil, .nil => .of_eq rfl rfl
  | _ :: _, _, _, .cons ha has, .cons hb hbs => (ha.apart hb).cons (has.apart hbs)

end

/-- **Nothing of a value goes by unread, but for second spellings.** Two values that are read as the
same filter have one canonical form exactly when they have the same shadows, so they have one
whenever no fragment in them spells a key twice. -/
theorem canonical_eq_iff_shadows_eq {f : Filter} {a b : Json} (ha : a.IsOrdered) (hb : b.IsOrdered)
    (hreada : ofJson a = .ok f) (hreadb : ofJson b = .ok f) :
    (a.canonical = b.canonical ↔ a.shadows = b.shadows) ∧
      ((∀ s ∈ a.shadows, s = []) → (∀ s ∈ b.shadows, s = []) → a.canonical = b.canonical) :=
  have hapart := (readFrom_of_ofJson hreada ha).apart (readFrom_of_ofJson hreadb hb)
  ⟨hapart.canonical_eq_iff, hapart.canonical_eq⟩

/-- A filter whose fragments are spelled with `$`, with its values written out. -/
def longSpelling : Json.Source :=
  .object [(some "$and", .array [
    .object [(some "$raw", .object [(some "$query", .string (some "a = ?")),
      (some "$bindings", .array [.number (some (.integer 18446744073709551615))])])],
    .object [(some "$not", .object [(some "$raw", .object [(some "$query", .string (some "b")),
      (some "$bindings", .null)])])],
    .object [(some "$between", .object [(some "$raw",
      .object [(some "to", .null), (some "from", .bool true)])])]])]

/-- The same filter with the fragments spelled without. -/
def shortSpelling : Json.Source :=
  .object [(some "$and", .array [
    .object [(some "$raw", .object [(some "query", .string (some "a = ?")),
      (some "bindings", .array [.string (some "18446744073709551615")])])],
    .object [(some "$not", .object [(some "$raw", .object [(some "query", .string (some "b"))])])],
    .object [(some "$between", .object [(some "$raw",
      .object [(some "from", .bool true), (some "to", .null)])])]])]

/-- The filter of either spelling. -/
def spelledFilter : Filter :=
  .all [.fragment "a = ?" [.text "18446744073709551615"], .not (.fragment "b" []),
    .between "$raw" (.bool true) .null]

theorem canonical_eq_iff_shadows_eq_spelledFilter : ∃ a b,
    longSpelling.toJson? Json.maxDepth = some a ∧ shortSpelling.toJson? Json.maxDepth = some b ∧
      ofJson a = .ok spelledFilter ∧ ofJson b = .ok spelledFilter ∧
      a.canonical = b.canonical := by
  obtain ⟨a, ha⟩ : ∃ a, longSpelling.toJson? Json.maxDepth = some a := ⟨_, rfl⟩
  obtain ⟨b, hb⟩ : ∃ b, shortSpelling.toJson? Json.maxDepth = some b := ⟨_, rfl⟩
  have hreada : ofJson a = .ok spelledFilter := by
    cases ha
    rfl
  have hreadb : ofJson b = .ok spelledFilter := by
    cases hb
    rfl
  have hshadows : a.shadows = [[], []] ∧ b.shadows = [[], []] := by
    cases ha
    cases hb
    exact ⟨rfl, rfl⟩
  obtain ⟨hiff, -⟩ := canonical_eq_iff_shadows_eq (Json.Source.isOrdered_toJson? ha)
    (Json.Source.isOrdered_toJson? hb) hreada hreadb
  exact ⟨a, b, ha, hb, hreada, hreadb, hiff.mpr (hshadows.1.trans hshadows.2.symm)⟩

/-- A fragment with its text in both spellings. -/
def doubledFragment : Json :=
  .object [("$raw", .object [("$query", .string "a = 1"), ("query", .string "b = 2")])]

/-- The fragment with the text that is read. -/
def singleFragment : Json :=
  .object [("$raw", .object [("$query", .string "a = 1")])]

/-- The text of the second spelling is passed over without a word. -/
theorem canonical_doubledFragment : doubledFragment.IsOrdered ∧ singleFragment.IsOrdered ∧
    ofJson doubledFragment = .ok (.fragment "a = 1" []) ∧
    ofJson singleFragment = .ok (.fragment "a = 1" []) ∧
    doubledFragment.canonical ≠ singleFragment.canonical := by
  refine ⟨?_, ?_, rfl, rfl, fun h => ?_⟩
  · exact ⟨List.pairwise_singleton _ _,
      ⟨List.pairwise_pair.mpr (by decide), trivial, trivial, trivial⟩, trivial⟩
  · exact ⟨List.pairwise_singleton _ _, ⟨List.pairwise_singleton _ _, trivial, trivial⟩, trivial⟩
  · have hlong : doubledFragment.canonical = doubledFragment := rfl
    have hshort : singleFragment.canonical = singleFragment := rfl
    rw [hlong, hshort] at h
    cases h

end Filter

end Rowset
