import Rowset.Binding
import Mathlib.Tactic.SplitIfs

/-!
# Filling in values

A statement binds its values in the order of its markers. Filling a statement puts a text for each
value in the place of its marker, and fails where markers and values do not come out even
(`Statement.fill?`). The pieces of a statement can also be written with their values in place
(`Sql.written`), and `fill?_statement` says that both give the same text: so the `k`-th marker of
the text stands for the `k`-th value.

This needs the words among the pieces to hold no marker (`Sql.Plain`); names hold none by their
type. Then every marker belongs to a value or to a fragment of the caller. A fragment brings as
many markers as it likes, which is why `markerCount_add` has a term for the fragments on either
side: markers and values differ by what the fragments are off together.
-/

namespace Rowset

/-! ### Filling in values -/

/-- Puts texts for values in the places of the markers, from left to right. -/
def fillMarkers (write : Value → String) : List Char → List Value → Option (List Char)
  | [], [] => some []
  | [], _ :: _ => none
  | c :: cs, values =>
    if c = '?' then
      match values with
      | [] => none
      | value :: values => (fillMarkers write cs values).map ((write value).toList ++ ·)
    else (fillMarkers write cs values).map (c :: ·)

/-- **A statement with its values filled in,** if it has as many markers as values. -/
def Statement.fill? (write : Value → String) (s : Statement) : Option String :=
  (fillMarkers write s.sql.toList s.bindings).map String.ofList

/-- A statement that has as many markers as values. -/
def Statement.Even (s : Statement) : Prop :=
  s.markerCount = s.bindings.length

instance (s : Statement) : Decidable s.Even :=
  inferInstanceAs (Decidable (s.markerCount = s.bindings.length))

section Fill
variable {write : Value → String}

theorem fillMarkers_marker (cs : List Char) (value : Value) (values : List Value) :
    fillMarkers write ('?' :: cs) (value :: values) =
      (fillMarkers write cs values).map ((write value).toList ++ ·) := rfl

theorem fillMarkers_cons {c : Char} (h : c ≠ '?') (cs : List Char) (values : List Value) :
    fillMarkers write (c :: cs) values = (fillMarkers write cs values).map (c :: ·) := by
  rw [fillMarkers.eq_def]
  exact if_neg h

theorem fillMarkers_of_notMem : ∀ {cs : List Char}, '?' ∉ cs → fillMarkers write cs [] = some cs
  | [], _ => rfl
  | c :: cs, h => by
    have hc : c ≠ '?' := fun he => h (he ▸ List.mem_cons_self)
    have ih := fillMarkers_of_notMem (fun hm => h (List.mem_cons_of_mem c hm))
    rw [fillMarkers_cons hc, ih]
    rfl

/-- A text that comes out even is filled before what follows it. -/
theorem fillMarkers_append : ∀ {cs : List Char} {values : List Value} {filled : List Char},
    fillMarkers write cs values = some filled → ∀ (ds : List Char) (more : List Value),
      fillMarkers write (cs ++ ds) (values ++ more) = (fillMarkers write ds more).map (filled ++ ·)
  | [], [], filled, h, ds, more => by
    cases h
    simp
  | [], _ :: _, _, h, _, _ => by cases h
  | c :: cs, values, filled, h, ds, more => by
    by_cases hc : c = '?'
    · subst hc
      cases values with
      | nil => cases h
      | cons value values =>
        rw [fillMarkers_marker] at h
        obtain ⟨rest, hrest, rfl⟩ := Option.map_eq_some_iff.mp h
        rw [List.cons_append, List.cons_append, fillMarkers_marker, fillMarkers_append hrest,
          Option.map_map]
        simp only [Function.comp_def, List.append_assoc]
    · rw [fillMarkers_cons hc] at h
      obtain ⟨rest, hrest, rfl⟩ := Option.map_eq_some_iff.mp h
      rw [List.cons_append, fillMarkers_cons hc, fillMarkers_append hrest, Option.map_map]
      rfl

/-- A text with as many markers as values can be filled. -/
theorem exists_fillMarkers : ∀ {cs : List Char} {values : List Value},
    cs.count '?' = values.length → ∃ filled, fillMarkers write cs values = some filled
  | [], [], _ => ⟨[], rfl⟩
  | [], _ :: _, h => by simp at h
  | c :: cs, values, h => by
    by_cases hc : c = '?'
    · subst hc
      rw [List.count_cons_self] at h
      cases values with
      | nil => simp at h
      | cons value values =>
        have hcount : cs.count '?' = values.length := by
          rw [List.length_cons] at h
          omega
        obtain ⟨filled, hf⟩ := exists_fillMarkers hcount
        exact ⟨_, by rw [fillMarkers_marker, hf]; rfl⟩
    · rw [List.count_cons_of_ne hc] at h
      obtain ⟨filled, hf⟩ := exists_fillMarkers h
      exact ⟨_, by rw [fillMarkers_cons hc, hf]; rfl⟩

end Fill

/-! ### Markers and values of pieces -/

namespace Sql

/-- The words of a piece hold no marker. -/
def Piece.Plain : Piece → Prop
  | .words t => '?' ∉ t.toList
  | _ => True

/-- No words among the pieces hold a marker. -/
def Plain (pieces : List Piece) : Prop :=
  ∀ piece ∈ pieces, piece.Plain

/-- The fragments of the caller among some pieces, as statements of their own. -/
def fragments : List Piece → List Statement
  | [] => []
  | .fragment sql bindings :: pieces => ⟨sql, bindings⟩ :: fragments pieces
  | _ :: pieces => fragments pieces

/-- A piece with its values in place. A fragment that does not come out even is left as it is. -/
def Piece.written (write : Value → String) : Piece → String
  | .marker value => write value
  | .fragment sql bindings => ((Statement.mk sql bindings).fill? write).getD sql
  | piece => piece.text

/-- **The text of some pieces with their values in place.** -/
def written (write : Value → String) (pieces : List Piece) : String :=
  String.join (pieces.map (Piece.written write))

/-- The markers that some statements have together. -/
def markerTotal : List Statement → Nat
  | [] => 0
  | s :: ss => s.markerCount + markerTotal ss

/-- The values that some statements bind together. -/
def bindingTotal : List Statement → Nat
  | [] => 0
  | s :: ss => s.bindings.length + bindingTotal ss

theorem plain_nil : Plain [] := by simp [Plain]

theorem plain_cons {piece : Piece} {pieces : List Piece} :
    Plain (piece :: pieces) ↔ piece.Plain ∧ Plain pieces := by simp [Plain]

theorem fragments_append (a b : List Piece) : fragments (a ++ b) = fragments a ++ fragments b := by
  induction a with
  | nil => rfl
  | cons piece a ih => cases piece <;> simp [fragments, ih]

theorem notMem_quotePart {c : Char} (hquote : c ≠ '"') {part : String} (h : c ∉ part.toList) :
    c ∉ (Name.quotePart part).toList := by
  rw [Name.quotePart, String.toList_ofList]
  simp only [List.cons_append, List.mem_cons, List.mem_append, List.mem_flatMap, not_or, not_exists,
    not_and]
  refine ⟨hquote, ?_, hquote, by simp⟩
  intro d hd
  split
  · simp [hquote]
  · intro hm
    rw [List.mem_singleton] at hm
    exact h (hm ▸ hd)

theorem notMem_intercalate {c : Char} {separator : String} (hs : c ∉ separator.toList) :
    ∀ {ts : List String}, (∀ t ∈ ts, c ∉ t.toList) → c ∉ (separator.intercalate ts).toList
  | [], _ => by simp
  | [t], h => by
    rw [String.intercalate_singleton]
    exact h t List.mem_cons_self
  | t :: u :: ts, h => by
    have ih := notMem_intercalate hs fun v hv => h v (List.mem_cons_of_mem t hv)
    rw [String.intercalate_cons_cons, String.toList_append, String.toList_append]
    simp only [List.mem_append, not_or]
    exact ⟨⟨h t List.mem_cons_self, hs⟩, ih⟩

/-- A character that is in no part of a name is not in its text, apart from quotes and dots. -/
theorem notMem_quoted_of_parts {c : Char} (hquote : c ≠ '"') (hdot : c ≠ '.') {name : Name}
    (h : ∀ part ∈ name.parts, c ∉ part.toList) : c ∉ name.quoted.toList := by
  rw [Name.quoted]
  refine notMem_intercalate (by simpa using hdot) ?_
  intro t ht
  obtain ⟨part, hpart, rfl⟩ := List.mem_map.mp ht
  exact notMem_quotePart hquote (h part hpart)

theorem notMem_quoted (name : Name) : '?' ∉ name.quoted.toList :=
  notMem_quoted_of_parts (by decide) (by decide) fun part hpart => (name.proper part hpart).2.2

theorem text_cons (piece : Piece) (pieces : List Piece) :
    text (piece :: pieces) = piece.text ++ text pieces := by
  rw [text, List.map_cons, String.join_cons, text]

theorem bindings_cons (piece : Piece) (pieces : List Piece) :
    bindings (piece :: pieces) = piece.bindings ++ bindings pieces := rfl

theorem written_cons (write : Value → String) (piece : Piece) (pieces : List Piece) :
    written write (piece :: pieces) = piece.written write ++ written write pieces := by
  rw [written, List.map_cons, String.join_cons, written]

/-- **Markers and values differ by what the fragments are off together.** -/
theorem markerCount_add : ∀ {pieces : List Piece}, Plain pieces →
    (statement pieces).markerCount + bindingTotal (fragments pieces) =
      (statement pieces).bindings.length + markerTotal (fragments pieces)
  | [], _ => rfl
  | piece :: pieces, h => by
    obtain ⟨hpiece, hrest⟩ := plain_cons.mp h
    have ih := markerCount_add hrest
    simp only [statement, Statement.markerCount] at ih ⊢
    rw [text_cons, bindings_cons, String.toList_append, List.count_append, List.length_append]
    cases piece with
    | words t =>
      have h0 : t.toList.count '?' = 0 := List.count_eq_zero.mpr hpiece
      simp only [Piece.text, Piece.bindings, fragments, List.length_nil, h0]
      omega
    | name n =>
      have h0 : n.quoted.toList.count '?' = 0 := List.count_eq_zero.mpr (notMem_quoted n)
      simp only [Piece.text, Piece.bindings, fragments, List.length_nil, h0]
      omega
    | marker v =>
      have h1 : "?".toList.count '?' = 1 := by decide
      simp only [Piece.text, Piece.bindings, fragments, List.length_singleton, h1]
      omega
    | fragment sql vs =>
      simp only [Piece.text, Piece.bindings, fragments, markerTotal, bindingTotal,
        Statement.markerCount] at ih ⊢
      omega

theorem markerTotal_eq_bindingTotal {ss : List Statement} (h : ∀ s ∈ ss, s.Even) :
    markerTotal ss = bindingTotal ss := by
  induction ss with
  | nil => rfl
  | cons s ss ih =>
    have hs : s.Even := h s List.mem_cons_self
    have hss := ih fun u hu => h u (List.mem_cons_of_mem s hu)
    unfold Statement.Even at hs
    rw [markerTotal, bindingTotal, hs, hss]

theorem even_statement {pieces : List Piece} (hp : Plain pieces)
    (he : ∀ s ∈ fragments pieces, s.Even) : (statement pieces).Even := by
  have hadd := markerCount_add hp
  have htotal := markerTotal_eq_bindingTotal he
  unfold Statement.Even
  omega

section Written
variable (write : Value → String)

theorem fillMarkers_piece {piece : Piece} (hp : piece.Plain)
    (he : ∀ s ∈ fragments [piece], s.Even) :
    fillMarkers write piece.text.toList piece.bindings = some (piece.written write).toList := by
  cases piece with
  | words t => exact fillMarkers_of_notMem hp
  | name n => exact fillMarkers_of_notMem (notMem_quoted n)
  | marker v => simp [Piece.text, Piece.bindings, Piece.written, fillMarkers]
  | fragment sql vs =>
    have hs : (Statement.mk sql vs).Even := he _ List.mem_cons_self
    obtain ⟨filled, hf⟩ := @exists_fillMarkers write _ _ hs
    simp only [Piece.text, Piece.bindings, Piece.written, Statement.fill?, hf]
    simp

/-- **Filling a statement gives its text with the values in place.** -/
theorem fill?_statement {pieces : List Piece} (hp : Plain pieces)
    (he : ∀ s ∈ fragments pieces, s.Even) :
    (statement pieces).fill? write = some (written write pieces) := by
  have hfill : fillMarkers write (text pieces).toList (bindings pieces) =
      some (written write pieces).toList := by
    induction pieces with
    | nil => rfl
    | cons piece pieces ih =>
      obtain ⟨hpiece, hrest⟩ := plain_cons.mp hp
      have hsplit : fragments (piece :: pieces) = fragments [piece] ++ fragments pieces :=
        fragments_append [piece] pieces
      rw [hsplit] at he
      have hone := fillMarkers_piece write hpiece fun s hs => he s (List.mem_append_left _ hs)
      have hmore := ih hrest fun s hs => he s (List.mem_append_right _ hs)
      rw [text_cons, bindings_cons, written_cons, String.toList_append, fillMarkers_append hone,
        hmore, Option.map_some, String.toList_append]
  rw [Statement.fill?, statement, hfill, Option.map_some, String.ofList_toList]

end Written

/-! ### Joined pieces -/

theorem joined_singleton (separator : String) (part : List Piece) :
    joined separator [part] = part := by
  simp [joined, joinAfter]

theorem text_joined_cons {separator : String} {part next : List Piece} {parts : List (List Piece)}
    (hpart : isBlank part = false) (hnext : isBlank next = false) :
    text (joined separator (part :: next :: parts)) =
      text part ++ separator ++ text (joined separator (next :: parts)) := by
  have hjoined : joined separator (part :: next :: parts) =
      part ++ .words separator :: joined separator (next :: parts) := by
    simp [joined, joinAfter, hpart, hnext]
  rw [hjoined, text_append, text_cons, String.append_assoc]
  rfl

theorem text_parenthesized (pieces : List Piece) :
    text (parenthesized pieces) = "(" ++ text pieces ++ ")" := by
  rw [parenthesized, List.cons_append, text_cons, text_append, String.append_assoc]
  rfl

end Sql

end Rowset
