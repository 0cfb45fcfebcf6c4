import Rowset.Filter.Reader

/-!
# The notation of filters

`Filter.Form` says how a filter is written as a structured value: a record as a plain object, and
every other filter as an object whose one key is an operator. A fragment has two spellings for each
of its keys, and its values may be left out when there are none; everything else is written in one
way only.

The filters that can be written are the expressible ones (`Filter.isExpressible`). Each of them has
a form in both spellings (`Filter.form_toJson`), and reading any form of it gives the filter back
(`Filter.ofJson_of_form`).
-/

namespace Rowset

/-! ### Values -/

namespace Value

/-- Holds of the scalars that a structured value can be: not of bytes, nor of numbers that are not
finite. -/
def isExpressible : Value → Bool
  | .float x => x.isFinite
  | .bytes _ => false
  | _ => true

theorem fitsSigned_toInt (n : Int64) : Text.fitsSigned 64 n.toInt = true := by
  have hlow := n.le_toInt
  have hhigh := n.toInt_lt
  unfold Text.fitsSigned
  rw [Bool.and_eq_true, decide_eq_true_iff, decide_eq_true_iff]
  exact ⟨hlow, hhigh⟩

theorem ofJson?_toJson {v : Value} (h : v.isExpressible = true) : ofJson? v.toJson = some v := by
  cases v with
  | null | bool | float | text => rfl
  | int n =>
    show some (ofNumber (.integer n.toInt)) = some (.int n)
    rw [ofNumber, if_pos (fitsSigned_toInt n), Int64.ofInt_toInt]
  | bytes => cases h

end Value

/-! ### Lists of entries in order -/

namespace Keyed

variable {α : Type}

/-- An entry behind all others is put at the end. -/
theorem insert_last {key : String} {value : α} {entries : List (String × α)}
    (h : ∀ e ∈ entries, e.1 < key) : insert key value entries = entries ++ [(key, value)] := by
  induction entries with
  | nil => rfl
  | cons entry rest ih =>
    have hlt : entry.1 < key := h entry List.mem_cons_self
    rw [insert, if_neg (String.lt_asymm hlt), if_neg (String.ne_of_lt hlt).symm,
      ih fun e he => h e (List.mem_cons_of_mem _ he)]
    rfl

theorem foldl_insert_of_sorted {new entries : List (String × α)} (h : Sorted (entries ++ new)) :
    new.foldl (fun sorted entry => insert entry.1 entry.2 sorted) entries = entries ++ new := by
  induction new generalizing entries with
  | nil => rw [List.foldl_nil, List.append_nil]
  | cons entry new ih =>
    have hlast : ∀ e ∈ entries, e.1 < entry.1 := fun e he =>
      (List.pairwise_append.mp h).2.2 e he entry List.mem_cons_self
    rw [List.foldl_cons, insert_last hlast, ih]
    · rw [List.append_assoc]
      rfl
    · rw [List.append_assoc]
      exact h

/-- **Entries in order are kept as they are.** -/
theorem ofList_of_sorted {entries : List (String × α)} (h : Sorted entries) :
    ofList entries = entries :=
  foldl_insert_of_sorted h

end Keyed

theorem Record.ofList_entries (r : Record) : ofList r.entries = r := by
  cases r with
  | mk entries sorted =>
    have hentries := Keyed.ofList_of_sorted sorted
    unfold ofList
    simp only [hentries]

namespace Filter

/-- The operator of a side. -/
def operator : Side → String
  | .above => "$gt"
  | .atLeast => "$gte"
  | .below => "$lt"
  | .atMost => "$lte"

/-- The key of a fragment, spelled with `$` or without. -/
def fragmentKey (sigil : Bool) (key : String) : String :=
  if sigil then "$" ++ key else key

mutual

/-- **A filter is written as a structured value.** -/
inductive Form : Filter → Json → Prop where
  | properties {record : Record} :
      Form (.properties record) (.object (record.entries.map fun e => (e.1, e.2.toJson)))
  | all {members : List Filter} {items : List Json} (h : FormEach members items) :
      Form (.all members) (.object [("$and", .array items)])
  | any {members : List Filter} {items : List Json} (h : FormEach members items) :
      Form (.any members) (.object [("$or", .array items)])
  | not {inner : Filter} {json : Json} (h : Form inner json) :
      Form (.not inner) (.object [("$not", json)])
  | oneOf {column : String} {values : List Value} : Form (.oneOf column values)
      (.object [("$in", .object [(column, .array (values.map Value.toJson))])])
  | noneOf {column : String} {values : List Value} : Form (.noneOf column values)
      (.object [("$notIn", .object [(column, .array (values.map Value.toJson))])])
  | missing {column : String} : Form (.missing column) (.object [("$null", .string column)])
  | present {column : String} : Form (.present column) (.object [("$notNull", .string column)])
  | between {column : String} {low high : Value} : Form (.between column low high)
      (.object [("$between",
        .object [(column, .object [("from", low.toJson), ("to", high.toJson)])])])
  | outside {column : String} {low high : Value} : Form (.outside column low high)
      (.object [("$notBetween",
        .object [(column, .object [("from", low.toJson), ("to", high.toJson)])])])
  | bounded {side : Side} {column : String} {value : Value} : Form (.bounded side column value)
      (.object [(operator side, .object [(column, value.toJson)])])
  | fragment {sql : String} {bindings : List Value} (sigil sigil' : Bool) :
      Form (.fragment sql bindings) (.object [("$raw", .object (Keyed.ofList
        [(fragmentKey sigil "query", .string sql),
         (fragmentKey sigil' "bindings", .array (bindings.map Value.toJson))]))])
  | bareFragment {sql : String} (sigil : Bool) : Form (.fragment sql [])
      (.object [("$raw", .object [(fragmentKey sigil "query", .string sql)])])

/-- Filters are written one after the other. -/
inductive FormEach : List Filter → List Json → Prop where
  | nil : FormEach [] []
  | cons {member : Filter} {members : List Filter} {item : Json} {items : List Json}
      (h : Form member item) (hs : FormEach members items) :
      FormEach (member :: members) (item :: items)

end

mutual

/-- **Holds of the filters that can be written and read back:** their values are expressible, no
column of a record looks like an operator, and nothing in them is deferred. -/
def isExpressible : Filter → Bool
  | .properties record => record.entries.all fun e => !isOperator e.1 && e.2.isExpressible
  | .all members => areExpressible members
  | .any members => areExpressible members
  | .not inner => inner.isExpressible
  | .oneOf _ values => values.all Value.isExpressible
  | .noneOf _ values => values.all Value.isExpressible
  | .missing _ => true
  | .present _ => true
  | .between _ low high => low.isExpressible && high.isExpressible
  | .outside _ low high => low.isExpressible && high.isExpressible
  | .bounded _ _ value => value.isExpressible
  | .fragment _ bindings => bindings.all Value.isExpressible
  | .deferred .. => false

/-- Holds of the lists of such filters. -/
def areExpressible : List Filter → Bool
  | [] => true
  | member :: members => member.isExpressible && areExpressible members

end

mutual

/-- The form of a filter with one spelling throughout; a deferred filter has none. -/
def toJson (sigil : Bool) : Filter → Json
  | .properties record => .object (record.entries.map fun e => (e.1, e.2.toJson))
  | .all members => .object [("$and", .array (memberJsons sigil members))]
  | .any members => .object [("$or", .array (memberJsons sigil members))]
  | .not inner => .object [("$not", inner.toJson sigil)]
  | .oneOf column values =>
    .object [("$in", .object [(column, .array (values.map Value.toJson))])]
  | .noneOf column values =>
    .object [("$notIn", .object [(column, .array (values.map Value.toJson))])]
  | .missing column => .object [("$null", .string column)]
  | .present column => .object [("$notNull", .string column)]
  | .between column low high =>
    .object [("$between", .object [(column, .object [("from", low.toJson), ("to", high.toJson)])])]
  | .outside column low high =>
    .object [("$notBetween",
      .object [(column, .object [("from", low.toJson), ("to", high.toJson)])])]
  | .bounded side column value => .object [(operator side, .object [(column, value.toJson)])]
  | .fragment sql bindings =>
    .object [("$raw", .object (Keyed.ofList [(fragmentKey sigil "query", .string sql),
      (fragmentKey sigil "bindings", .array (bindings.map Value.toJson))]))]
  | .deferred .. => .null

/-- The forms of some filters. -/
def memberJsons (sigil : Bool) : List Filter → List Json
  | [] => []
  | member :: members => member.toJson sigil :: memberJsons sigil members

end

/-! ### Writing -/

mutual

/-- An expressible filter has a form in either spelling. -/
theorem form_toJson (sigil : Bool) : ∀ f : Filter, f.isExpressible = true → Form f (f.toJson sigil)
  | .properties record, _ => .properties
  | .all members, h => by
    rw [isExpressible] at h
    exact .all (formEach_memberJsons sigil members h)
  | .any members, h => by
    rw [isExpressible] at h
    exact .any (formEach_memberJsons sigil members h)
  | .not inner, h => by
    rw [isExpressible] at h
    exact .not (form_toJson sigil inner h)
  | .oneOf .., _ => .oneOf
  | .noneOf .., _ => .noneOf
  | .missing _, _ => .missing
  | .present _, _ => .present
  | .between .., _ => .between
  | .outside .., _ => .outside
  | .bounded .., _ => .bounded
  | .fragment .., _ => .fragment sigil sigil
  | .deferred .., h => by cases h

theorem formEach_memberJsons (sigil : Bool) : ∀ members : List Filter,
    areExpressible members = true → FormEach members (memberJsons sigil members)
  | [], _ => .nil
  | member :: members, h => by
    rw [areExpressible, Bool.and_eq_true] at h
    exact .cons (form_toJson sigil member h.1) (formEach_memberJsons sigil members h.2)

end

/-! ### Reading -/

/-- Items that are read back one by one are read back together. -/
theorem mapM_map_eq_ok {α β ε : Type} {write : α → β} {read : β → Except ε α} {xs : List α}
    (h : ∀ x ∈ xs, read (write x) = .ok x) : (xs.map write).mapM read = .ok xs := by
  induction xs with
  | nil => rfl
  | cons x xs ih =>
    rw [List.map_cons, List.mapM_cons, h x List.mem_cons_self,
      ih fun y hy => h y (List.mem_cons_of_mem _ hy)]
    rfl

theorem readScalar_toJson (op column : String) {v : Value} (h : v.isExpressible = true) :
    readScalar op column v.toJson = .ok v := by
  rw [readScalar, Value.ofJson?_toJson h]

theorem mapM_readScalar (op column : String) {values : List Value}
    (h : values.all Value.isExpressible = true) :
    (values.map Value.toJson).mapM (readScalar op column) = .ok values :=
  mapM_map_eq_ok fun v hv => readScalar_toJson op column (List.all_eq_true.mp h v hv)

theorem readProperties_toJson {record : Record}
    (h : ∀ e ∈ record.entries, e.2.isExpressible = true) :
    readProperties (record.entries.map fun e => (e.1, e.2.toJson)) = .ok (.properties record) := by
  unfold readProperties
  rw [mapM_map_eq_ok]
  · show Except.ok (Filter.properties (Record.ofList record.entries)) = _
    rw [Record.ofList_entries]
  · intro e he
    dsimp only
    rw [readScalar_toJson _ _ (h e he)]
    rfl

theorem readMembership_toJson (op column : String) {values : List Value}
    (h : values.all Value.isExpressible = true) :
    readMembership op (.object [(column, .array (values.map Value.toJson))]) =
      .ok (column, values) := by
  show (readScalars op column (.array (values.map Value.toJson)) >>= fun values =>
    pure (column, values)) = _
  rw [readScalars, mapM_readScalar op column h]
  rfl

theorem readComparison_toJson (op column : String) {v : Value} (h : v.isExpressible = true) :
    readComparison op (.object [(column, v.toJson)]) = .ok (column, v) := by
  show (readScalar op column v.toJson >>= fun value => pure (column, value)) = _
  rw [readScalar_toJson op column h]
  rfl

theorem readRange_toJson (op column : String) {low high : Value}
    (h : (low.isExpressible && high.isExpressible) = true) :
    readRange op (.object [(column, .object [("from", low.toJson), ("to", high.toJson)])]) =
      .ok (column, low, high) := by
  rw [Bool.and_eq_true] at h
  show (readScalar op column low.toJson >>= fun low => readScalar op column high.toJson >>=
    fun high => pure (column, low, high)) = _
  rw [readScalar_toJson op column h.1, readScalar_toJson op column h.2]
  rfl

theorem ofList_pair {α : Type} {key key' : String} (value value' : α) (h : key' < key) :
    Keyed.ofList [(key, value), (key', value')] = [(key', value'), (key, value)] := by
  show Keyed.insert key' value' [(key, value)] = _
  rw [Keyed.insert, if_pos h]

/-- The keys of a fragment are told apart in all four spellings. -/
theorem readFragment_object (sigil sigil' : Bool) (sql : String) (items : List Json) :
    readFragment (.object (Keyed.ofList [(fragmentKey sigil "query", .string sql),
      (fragmentKey sigil' "bindings", .array items)])) =
        (items.mapM (readScalar "$raw" "$bindings")).map (.fragment sql) := by
  cases sigil with
  | true =>
    cases sigil' with
    | true =>
      rw [ofList_pair _ _ (by decide)]
      rfl
    | false =>
      have hlt : fragmentKey true "query" < fragmentKey false "bindings" := by decide
      rw [Keyed.ofList_of_sorted (List.pairwise_pair.mpr hlt)]
      rfl
  | false =>
    rw [ofList_pair _ _ (by cases sigil' <;> decide)]
    cases sigil' <;> rfl

/-- An operator that is no connective holds no filters. -/
theorem ofJson_operator {op : String} (payload : Json) (hop : isOperator op = true)
    (hand : op ≠ "$and") (hor : op ≠ "$or") (hnot : op ≠ "$not") :
    ofJson (.object [(op, payload)]) = readOperator op payload := by
  have hany : [(op, payload)].any (fun e => isOperator e.1) = true := by
    rw [List.any_cons, hop, Bool.true_or]
  rw [ofJson, if_pos hany]
  · intro items h
    exact absurd h hand
  · intro items h
    exact absurd h hor
  · exact hand
  · exact hor
  · exact hnot

theorem readOperator_raw (payload : Json) : readOperator "$raw" payload = readFragment payload :=
  rfl

theorem readOperator_operator (side : Side) (payload : Json) :
    readOperator (operator side) payload =
      (readComparison (operator side) payload).map fun (column, value) =>
        .bounded side column value := by
  cases side <;> rfl

theorem ofJson_object_operator (side : Side) (payload : Json) :
    ofJson (.object [(operator side, payload)]) = readOperator (operator side) payload := by
  cases side <;> exact ofJson_operator _ (by decide) (by decide) (by decide) (by decide)

/-- An object without operators is a record. -/
theorem ofJson_plain {members : List (String × Json)}
    (h : members.any (fun e => isOperator e.1) = false) :
    ofJson (.object members) = readProperties members := by
  unfold ofJson
  rw [if_neg (Bool.eq_false_iff.mp h)]

theorem ofJson_and (items : List Json) :
    ofJson (.object [("$and", .array items)]) = (ofItems items).map .all := by
  rw [ofJson]
  rfl

theorem ofJson_or (items : List Json) :
    ofJson (.object [("$or", .array items)]) = (ofItems items).map .any := by
  rw [ofJson]
  rfl

theorem ofJson_not (json : Json) : ofJson (.object [("$not", json)]) = (ofJson json).map .not := by
  rw [ofJson]
  rfl

mutual

/-- **Reading a form of an expressible filter gives the filter back.** -/
theorem ofJson_of_form : ∀ {f : Filter} {json : Json}, Form f json → f.isExpressible = true →
    ofJson json = .ok f
  | _, _, @Form.properties record, h => by
    rw [isExpressible, List.all_eq_true] at h
    have hplain : (record.entries.map fun e => (e.1, e.2.toJson)).any
        (fun e => isOperator e.1) = false := by
      rw [List.any_map, List.any_eq_false]
      intro e he
      have hcolumn := (Bool.and_eq_true _ _ ▸ h e he).1
      rw [Bool.not_eq_true'] at hcolumn
      exact Bool.eq_false_iff.mp hcolumn
    rw [ofJson_plain hplain]
    exact readProperties_toJson fun e he => (Bool.and_eq_true _ _ ▸ h e he).2
  | _, _, .all hs, h => by
    rw [isExpressible] at h
    rw [ofJson_and, ofItems_of_formEach hs h]
    rfl
  | _, _, .any hs, h => by
    rw [isExpressible] at h
    rw [ofJson_or, ofItems_of_formEach hs h]
    rfl
  | _, _, .not hinner, h => by
    rw [isExpressible] at h
    rw [ofJson_not, ofJson_of_form hinner h]
    rfl
  | _, _, @Form.oneOf column values, h => by
    rw [ofJson_operator _ (by decide) (by decide) (by decide) (by decide)]
    show (readMembership "$in" _).map _ = _
    rw [readMembership_toJson _ _ h]
    rfl
  | _, _, @Form.noneOf column values, h => by
    rw [ofJson_operator _ (by decide) (by decide) (by decide) (by decide)]
    show (readMembership "$notIn" _).map _ = _
    rw [readMembership_toJson _ _ h]
    rfl
  | _, _, .missing, _ => ofJson_operator _ (by decide) (by decide) (by decide) (by decide)
  | _, _, .present, _ => ofJson_operator _ (by decide) (by decide) (by decide) (by decide)
  | _, _, .between, h => by
    rw [ofJson_operator _ (by decide) (by decide) (by decide) (by decide)]
    show (readRange "$between" _).map _ = _
    rw [readRange_toJson _ _ h]
    rfl
  | _, _, .outside, h => by
    rw [ofJson_operator _ (by decide) (by decide) (by decide) (by decide)]
    show (readRange "$notBetween" _).map _ = _
    rw [readRange_toJson _ _ h]
    rfl
  | _, _, @Form.bounded side column value, h => by
    rw [ofJson_object_operator, readOperator_operator, readComparison_toJson _ _ h]
    rfl
  | _, _, @Form.fragment sql bindings sigil sigil', h => by
    rw [ofJson_operator _ (by decide) (by decide) (by decide) (by decide)]
    rw [readOperator_raw, readFragment_object, mapM_readScalar _ _ h]
    rfl
  | _, _, .bareFragment sigil, _ => by
    rw [ofJson_operator _ (by decide) (by decide) (by decide) (by decide)]
    cases sigil <;> rfl

theorem ofItems_of_formEach : ∀ {members : List Filter} {items : List Json},
    FormEach members items → areExpressible members = true → ofItems items = .ok members
  | _, _, .nil, _ => by rw [ofItems]
  | _, _, .cons hmember hs, h => by
    rw [areExpressible, Bool.and_eq_true] at h
    rw [ofItems, ofJson_of_form hmember h.1, ofItems_of_formEach hs h.2]
    rfl

end

/-- **Reading undoes writing.** Every filter that can be written has a form in either spelling, and
whatever form of it is read, the filter comes back as it was. -/
theorem ofJson_forms {f : Filter} (h : f.isExpressible = true) :
    (∀ sigil, Form f (f.toJson sigil)) ∧ ∀ json, Form f json → ofJson json = .ok f :=
  ⟨fun sigil => form_toJson sigil f h, fun _ hform => ofJson_of_form hform h⟩

/-- Columns and texts that look like operators, and a fragment in a negation. -/
def disguisedFilter : Filter :=
  .any [.properties (.ofList [("from", .text "$and"), ("query", .null)]), .all [],
    .oneOf "$gt" [.bool true, .int (-9223372036854775808)],
    .not (.all [.between "" (.float (.ofInt 1)) (.int 1), .fragment "a = ?" [.text "$raw"]])]

theorem ofJson_forms_disguisedFilter :
    disguisedFilter.isExpressible = true ∧
      ofJson (disguisedFilter.toJson true) = .ok disguisedFilter ∧
      ofJson (disguisedFilter.toJson false) = .ok disguisedFilter := by
  have h : disguisedFilter.isExpressible = true := by decide +kernel
  obtain ⟨hforms, hread⟩ := ofJson_forms h
  exact ⟨h, hread _ (hforms true), hread _ (hforms false)⟩

end Filter

end Rowset
