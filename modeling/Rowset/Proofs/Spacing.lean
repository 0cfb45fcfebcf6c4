import Rowset.Proofs.Filling

/-!
# Spacing

The words of a statement are spelled in letters, digits, blanks and a few signs, so they hold no
quote, no colon, no dollar sign and no marker. And no piece touches the next one: between two of
them stands a blank, a parenthesis, a comma or a dot, at the end of the one or at the start of the
other. Pieces of this kind are `Tidy`. In a tidy statement a name ends where its closing quote
stands and a placeholder where its number ends, whatever comes behind.

What starts with a blank, a comma, a dot or a closing parenthesis is `Trailing`: it can stand behind
any tidy pieces (`tidy_append`).
-/

namespace Rowset.Sql

/-- Holds of the characters that words are spelled in. -/
def isPlainChar (c : Char) : Bool :=
  c.isAlphanum || [' ', '(', ')', ',', '.', '*', '=', '<', '>'].contains c

/-- Holds of the texts that are spelled in these characters. -/
def isSpelled (text : String) : Bool :=
  text.toList.all isPlainChar

/-- Holds of the characters behind which anything can stand. -/
def isOpener (c : Char) : Bool :=
  c == ' ' || c == '('

/-- Holds of the characters that can stand behind anything. -/
def isCloser (c : Char) : Bool :=
  c == ' ' || c == ',' || c == '.' || c == ')'

/-- Holds of the texts behind which anything can stand. -/
def endsApart (text : String) : Bool :=
  text.toList.getLast?.all isOpener

/-- Holds of the texts that can stand behind anything. -/
def startsApart (text : String) : Bool :=
  text.toList.head?.all isCloser

/-- Holds of the texts that can stand between any two. -/
def isSeparator (text : String) : Bool :=
  isSpelled text && startsApart text && endsApart text && !text.isEmpty

/-- The words of a piece are spelled in plain characters. -/
def Piece.Spelled : Piece → Prop
  | .words t => isSpelled t = true
  | _ => True

/-- **Pieces of which none touches the next,** with words in plain characters. -/
def Tidy : List Piece → Prop
  | [] => True
  | piece :: pieces =>
    piece.Spelled ∧ (endsApart piece.text = true ∨ startsApart (text pieces) = true) ∧ Tidy pieces

/-- Tidy pieces that can stand behind any others. -/
structure Trailing (pieces : List Piece) : Prop where
  tidy : Tidy pieces
  apart : startsApart (text pieces) = true

/-! ### Texts -/

theorem isBlank_iff : ∀ {pieces : List Piece}, isBlank pieces = true ↔ text pieces = ""
  | [] => by simp [isBlank, text]
  | piece :: pieces => by
    rw [text_cons, String.append_eq_empty_iff, ← isBlank_iff, ← String.isEmpty_iff]
    simp [isBlank]

theorem startsApart_append_of_ne {a : String} (h : a ≠ "") (b : String) :
    startsApart (a ++ b) = startsApart a := by
  unfold startsApart
  rw [String.toList_append]
  cases ha : a.toList with
  | nil => exact absurd (String.toList_eq_nil_iff.mp ha) h
  | cons c cs => rfl

theorem startsApart_append {a b : String} (ha : startsApart a = true) (hb : startsApart b = true) :
    startsApart (a ++ b) = true := by
  by_cases h : a = ""
  · rw [h, String.empty_append]
    exact hb
  · rw [startsApart_append_of_ne h]
    exact ha

theorem isSpelled_append {a b : String} (ha : isSpelled a = true) (hb : isSpelled b = true) :
    isSpelled (a ++ b) = true := by
  unfold isSpelled at *
  rw [String.toList_append, List.all_append, ha, hb]
  rfl

theorem isSpelled_toString (n : Nat) : isSpelled (toString n) = true := by
  rw [Nat.toString_eq_ofList_toDigits, isSpelled, String.toList_ofList, List.all_eq_true]
  intro c hc
  have hd := Nat.isDigit_of_mem_toDigits (by decide) (by decide) hc
  simp [isPlainChar, Char.isAlphanum, hd]

/-- A text in plain characters has none that is not plain. -/
theorem notMem_of_isSpelled {t : String} {c : Char} (ht : isSpelled t = true)
    (hc : isPlainChar c = false) : c ∉ t.toList := by
  intro hm
  rw [isSpelled, List.all_eq_true] at ht
  rw [ht c hm] at hc
  cases hc

theorem toList_quotePart (part : String) (rest : List Char) :
    (Name.quotePart part).toList ++ rest =
      '"' :: (part.toList.flatMap (fun c => if c = '"' then ['"', '"'] else [c]) ++
        '"' :: rest) := by
  rw [Name.quotePart, String.toList_ofList, List.append_assoc, List.cons_append,
    List.singleton_append]

theorem getLast?_quotePart (part : String) : (Name.quotePart part).toList.getLast? = some '"' := by
  rw [Name.quotePart, String.toList_ofList, List.getLast?_concat]

/-- A name ends in a quote. -/
theorem endsApart_quoted (name : Name) : endsApart name.quoted = false := by
  have hlast : ∀ parts : List String, parts ≠ [] →
      (String.intercalate "." (parts.map Name.quotePart)).toList.getLast? = some '"' := by
    intro parts
    induction parts with
    | nil => exact fun hne => absurd rfl hne
    | cons part parts ih =>
      intro _
      cases parts with
      | nil =>
        rw [List.map_singleton, String.intercalate_singleton]
        exact getLast?_quotePart part
      | cons next parts =>
        rw [List.map_cons, List.map_cons, String.intercalate_cons_cons, String.toList_append,
          List.getLast?_append, ← List.map_cons, ih (List.cons_ne_nil _ _)]
        rfl
  rw [endsApart, Name.quoted, hlast name.parts name.parts_ne_nil]
  decide

theorem isEmpty_quoted (name : Name) : name.quoted.isEmpty = false := by
  rw [Bool.eq_false_iff, Ne, String.isEmpty_iff]
  intro h
  have hends := endsApart_quoted name
  rw [h] at hends
  cases hends

/-! ### Pieces put together -/

theorem tidy_nil : Tidy [] := trivial

theorem trailing_nil : Trailing [] := ⟨tidy_nil, rfl⟩

/-- A piece that does not end apart is followed by pieces that start apart. -/
theorem tidy_cons {piece : Piece} {pieces : List Piece} (hs : piece.Spelled)
    (h : Trailing pieces) : Tidy (piece :: pieces) :=
  ⟨hs, .inr h.apart, h.tidy⟩

theorem tidy_singleton {piece : Piece} (hs : piece.Spelled) : Tidy [piece] :=
  tidy_cons hs trailing_nil

theorem tidy_spelled {words : String} (hs : isSpelled words = true) : Tidy [.words words] :=
  tidy_singleton hs

/-- What stands behind a name or a marker starts apart. -/
theorem startsApart_of_tidy {piece : Piece} {pieces : List Piece} (h : Tidy (piece :: pieces))
    (hends : endsApart piece.text = false) : startsApart (text pieces) = true := by
  obtain ⟨-, hapart, -⟩ := h
  rcases hapart with hapart | hapart
  · rw [hends] at hapart
    cases hapart
  · exact hapart

/-- Words that end apart can be followed by any pieces. -/
theorem tidy_words {words : String} {pieces : List Piece} (hs : isSpelled words = true)
    (he : endsApart words = true) (h : Tidy pieces) : Tidy (.words words :: pieces) :=
  ⟨hs, .inl he, h⟩

theorem trailing_of_tidy {words : String} {pieces : List Piece} (hne : words ≠ "")
    (ha : startsApart words = true) (h : Tidy (.words words :: pieces)) :
    Trailing (.words words :: pieces) := by
  refine ⟨h, ?_⟩
  rw [text_cons]
  exact (startsApart_append_of_ne hne _).trans ha

theorem trailing_spelled {words : String} (hne : words ≠ "") (ha : startsApart words = true)
    (hs : isSpelled words = true) : Trailing [.words words] :=
  trailing_of_tidy hne ha (tidy_spelled hs)

/-- A separator can stand between any two tidy parts. -/
theorem trailing_separator {words : String} {pieces : List Piece} (hw : isSeparator words = true)
    (h : Tidy pieces) : Trailing (.words words :: pieces) := by
  simp only [isSeparator, Bool.and_eq_true, Bool.not_eq_true'] at hw
  obtain ⟨⟨⟨hs, ha⟩, he⟩, hne⟩ := hw
  refine trailing_of_tidy ?_ ha (tidy_words hs he h)
  rintro rfl
  cases hne

theorem trailing_of_isBlank {pieces : List Piece} (h : Tidy pieces) (hb : isBlank pieces = true) :
    Trailing pieces :=
  ⟨h, by rw [isBlank_iff.mp hb]; rfl⟩

theorem tidy_append {a b : List Piece} (ha : Tidy a) (hb : Trailing b) : Tidy (a ++ b) := by
  induction a with
  | nil => exact hb.tidy
  | cons piece pieces ih =>
    obtain ⟨hs, hapart, hrest⟩ := ha
    refine ⟨hs, hapart.imp_right fun h => ?_, ih hrest⟩
    show startsApart (text (pieces ++ b)) = true
    rw [text_append]
    exact startsApart_append h hb.apart

theorem trailing_append {a b : List Piece} (ha : Trailing a) (hb : Trailing b) :
    Trailing (a ++ b) := by
  refine ⟨tidy_append ha.tidy hb, ?_⟩
  rw [text_append]
  exact startsApart_append ha.apart hb.apart

/-- Pieces without text keep nothing apart. -/
theorem tidy_append_of_isBlank {a b : List Piece} (ha : Tidy a) (hblank : isBlank a = true)
    (hb : Tidy b) : Tidy (a ++ b) := by
  induction a with
  | nil => exact hb
  | cons piece pieces ih =>
    rw [isBlank, List.all_cons, Bool.and_eq_true] at hblank
    have hempty : piece.text = "" := String.isEmpty_iff.mp hblank.1
    obtain ⟨hs, -, hrest⟩ := ha
    refine ⟨hs, .inl ?_, ih hrest hblank.2⟩
    rw [hempty]
    rfl

theorem tidy_parenthesized {pieces : List Piece} (h : Tidy pieces) :
    Tidy (parenthesized pieces) := by
  have hclose : Trailing [.words ")"] := trailing_spelled (by decide) (by decide) (by decide)
  exact tidy_words (by decide) (by decide) (tidy_append h hclose)

theorem trailing_joinAfter {separator : String} (hs : isSeparator separator = true)
    {parts : List (List Piece)} (h : ∀ part ∈ parts, Tidy part) :
    Trailing (joinAfter separator true parts) := by
  induction parts with
  | nil => exact trailing_nil
  | cons part parts ih =>
    have hpart := h part List.mem_cons_self
    have hrest := ih fun q hq => h q (List.mem_cons_of_mem part hq)
    by_cases hblank : isBlank part = true
    · rw [joinAfter, if_pos hblank]
      exact trailing_append (trailing_of_isBlank hpart hblank) hrest
    · rw [joinAfter, if_neg hblank, if_pos rfl]
      exact trailing_separator hs (tidy_append hpart hrest)

theorem tidy_joined {separator : String} (hs : isSeparator separator = true)
    {parts : List (List Piece)} (h : ∀ part ∈ parts, Tidy part) :
    Tidy (joined separator parts) := by
  unfold joined
  induction parts with
  | nil => exact tidy_nil
  | cons part parts ih =>
    have hpart := h part List.mem_cons_self
    have htail : ∀ q ∈ parts, Tidy q := fun q hq => h q (List.mem_cons_of_mem part hq)
    by_cases hblank : isBlank part = true
    · rw [joinAfter, if_pos hblank]
      exact tidy_append_of_isBlank hpart hblank (ih htail)
    · rw [joinAfter, if_neg hblank, if_neg Bool.false_ne_true]
      exact tidy_append hpart (trailing_joinAfter hs htail)

theorem tidy_joined_map {α : Type} {separator : String} (hs : isSeparator separator = true)
    {f : α → List Piece} {xs : List α} (h : ∀ x ∈ xs, Tidy (f x)) :
    Tidy (joined separator (xs.map f)) := by
  refine tidy_joined hs ?_
  intro part hpart
  obtain ⟨x, hx, rfl⟩ := List.mem_map.mp hpart
  exact h x hx

theorem tidy_marker (value : Value) : Tidy [.marker value] :=
  tidy_singleton trivial

theorem tidy_nameList (names : List Name) : Tidy (nameList names) :=
  tidy_joined_map (by decide) fun _ _ => tidy_singleton trivial

/-! ### Markers -/

/-- Tidy pieces hold no marker in their words. -/
theorem plain_of_tidy : ∀ {pieces : List Piece}, Tidy pieces → Plain pieces
  | [], _ => plain_nil
  | piece :: pieces, ⟨hs, _, hrest⟩ => by
    refine plain_cons.mpr ⟨?_, plain_of_tidy hrest⟩
    cases piece with
    | words t => exact notMem_of_isSpelled hs (by decide)
    | name | marker | fragment => trivial

end Rowset.Sql
