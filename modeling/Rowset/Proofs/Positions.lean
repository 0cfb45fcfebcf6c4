import Rowset.Proofs.Numbering
import Rowset.Proofs.Planning
import Rowset.Wire.Server

/-!
# Positions of parameters

A statement without fragments reaches the server with `$1`, `$2`, … in the places of its markers,
each once and in this order, whatever its names are (`Statement.Positioned`). Its pieces are
tidy, so every marker is clear (`Sql.isClear_text`): names are passed over by their quotes, also
where they contain quotes, colons or the names of parameters, and what stands behind a marker is no
part of its name.

`references` reads the numbers back from the text that the server gets, in one pass and outside of
quoted names. It knows nothing of markers: that it finds `1, 2, …` is a fact about the text.
-/

namespace Rowset

/-! ### Reading references -/

/-- Where a reader of references stands. -/
inductive Stand where
  /-- Outside of quotes, right behind a word or a name, or not. -/
  | outside (joined : Bool)
  /-- In a quoted name. -/
  | quoted
  /-- Behind a dollar sign and some digits. -/
  | number (digits : List Char)

namespace Stand

/-- Holds of the characters that words are made of; a dollar sign behind one belongs to the word. -/
def isWordChar (c : Char) : Bool :=
  c.isAlphanum || c == '_' || c == '$' || 127 < c.toNat

/-- Where the reader stands outside of quotes behind one more character. -/
def next (joined : Bool) (c : Char) : Stand :=
  if c = '"' then .quoted
  else if c = '$' ∧ joined = false then .number []
  else .outside (isWordChar c)

/-- The number that some digits are, if there are any. -/
def reference (digits : List Char) : List Nat :=
  if digits.isEmpty then [] else [Nat.ofDigitChars 10 digits 0]

end Stand

/-- **The parameters that a text refers to** outside of quoted names, by number, in text order. -/
def references : Stand → List Char → List Nat
  | .outside _, [] => []
  | .quoted, [] => []
  | .number digits, [] => Stand.reference digits
  | .outside joined, c :: cs => references (.next joined c) cs
  | .quoted, c :: cs => if c = '"' then references (.outside true) cs else references .quoted cs
  | .number digits, c :: cs =>
    if c.isDigit then references (.number (digits ++ [c])) cs
    else Stand.reference digits ++ references (.next true c) cs

theorem references_digits {ds : List Char} (h : ∀ d ∈ ds, d.isDigit = true)
    (before rest : List Char) :
    references (.number before) (ds ++ rest) = references (.number (before ++ ds)) rest := by
  induction ds generalizing before with
  | nil => rw [List.nil_append, List.append_nil]
  | cons d ds ih =>
    have hd := h d List.mem_cons_self
    rw [List.cons_append, references, if_pos hd, ih fun e he => h e (List.mem_cons_of_mem d he),
      List.append_assoc, List.singleton_append]

/-- A number ends where no digit follows. -/
theorem references_number {rest : List Char} (h : rest.head?.any Char.isDigit = false)
    (digits : List Char) : references (.number digits) rest =
      Stand.reference digits ++ references (.outside true) rest := by
  cases rest with
  | nil => simp [references]
  | cons c rest =>
    have hc : ¬ c.isDigit = true := by simpa using h
    exact if_neg hc

/-- A placeholder refers to its parameter. -/
theorem references_ordinal {rest : List Char} (h : rest.head?.any Char.isDigit = false)
    (position : Nat) : references (.outside false) (Statement.ordinal position ++ rest) =
      (position + 1) :: references (.outside true) rest := by
  have hdigits : ∀ d ∈ Nat.toDigits 10 (position + 1), d.isDigit = true :=
    fun d hd => Nat.isDigit_of_mem_toDigits (by decide) (by decide) hd
  rw [Statement.ordinal, Nat.toString_eq_ofList_toDigits, String.toList_ofList, List.cons_append]
  show references (.number []) _ = _
  rw [references_digits hdigits, references_number h, List.nil_append, Stand.reference,
    if_neg (by simp), Nat.ofDigitChars_ten_toDigits, List.singleton_append]

/-! ### Quoted names -/

/-- What passes over a quoted part and over a dot passes over a name. -/
theorem Name.pass_quoted {α : Type} (read : Bool → List Char → α)
    (hpart : ∀ joined part rest, '?' ∉ part.toList →
      read joined ((quotePart part).toList ++ rest) = read true rest)
    (hdot : ∀ rest, read true ('.' :: rest) = read false rest) (name : Name) (joined : Bool)
    (rest : List Char) : read joined (name.quoted.toList ++ rest) = read true rest := by
  have hall : ∀ (parts : List String) (joined : Bool), parts ≠ [] →
      (∀ part ∈ parts, '?' ∉ part.toList) →
      read joined ((String.intercalate "." (parts.map quotePart)).toList ++ rest) =
        read true rest := by
    intro parts
    induction parts with
    | nil =>
      intro _ hne
      exact absurd rfl hne
    | cons part parts ih =>
      intro joined _ hparts
      have hp := hparts part List.mem_cons_self
      have hrest : ∀ p ∈ parts, '?' ∉ p.toList := fun p h => hparts p (List.mem_cons_of_mem part h)
      cases parts with
      | nil =>
        rw [List.map_singleton, String.intercalate_singleton]
        exact hpart joined part rest hp
      | cons next parts =>
        have hdots : ".".toList = ['.'] := rfl
        rw [List.map_cons, List.map_cons, String.intercalate_cons_cons, String.toList_append,
          String.toList_append, List.append_assoc, List.append_assoc, hpart joined part _ hp, hdots,
          List.singleton_append, hdot]
        exact ih false (List.cons_ne_nil _ _) hrest
  exact hall name.parts joined name.parts_ne_nil fun part h => (name.proper part h).2.2

theorem references_quoted (name : Name) (joined : Bool) (rest : List Char) :
    references (.outside joined) (name.quoted.toList ++ rest) =
      references (.outside true) rest := by
  refine Name.pass_quoted (fun joined => references (.outside joined)) ?_ ?_ name joined rest
  · intro joined part rest _
    rw [Sql.toList_quotePart]
    show references .quoted _ = _
    induction part.toList with
    | nil => rfl
    | cons c cs ih =>
      rw [List.flatMap_cons, List.append_assoc]
      by_cases hc : c = '"'
      · subst hc
        exact ih
      · rw [if_neg hc, List.singleton_append, references, if_neg hc, ih]
  · intro rest
    rfl

namespace Placeholder

theorem isClear_other {c : Char} (hq : ¬ (c = '\'' ∨ c = '"')) (hc : c ≠ ':') (hm : c ≠ '?')
    (count : Nat) (cs : List Char) : isClear count (c :: cs) = isClear count cs := by
  rw [isClear.eq_def]
  split
  · next heq => cases heq
  · next heq =>
    cases heq
    exact absurd rfl hc
  · next heq =>
    cases heq
    rw [if_neg hq, if_neg hc, if_neg hm]

theorem isClear_marker (count : Nat) (cs : List Char) :
    isClear count ('?' :: cs) = (!cs.head?.any isNameChar && isClear count cs) := by
  rw [isClear.eq_def]
  simp

theorem isClear_quote (count : Nat) (cs : List Char) : isClear count ('"' :: cs) =
    (!(splitQuoted '"' cs).1.contains '?' && isClear count (splitQuoted '"' cs).2) := by
  rw [isClear.eq_def]
  simp

theorem isClear_quoted (count : Nat) (name : Name) (rest : List Char) :
    isClear count (name.quoted.toList ++ rest) = isClear count rest := by
  refine Name.pass_quoted (fun _ => isClear count) ?_ ?_ name true rest
  · intro _ part rest hpart
    rw [Sql.toList_quotePart, isClear_quote]
    revert hpart
    generalize part.toList = cs
    intro hpart
    induction cs with
    | nil => simp [splitQuoted]
    | cons c cs ih =>
      rw [List.mem_cons, not_or] at hpart
      specialize ih hpart.2
      rw [List.flatMap_cons, List.append_assoc]
      by_cases hc : c = '"'
      · subst hc
        rw [← isClear_quote] at ih
        simpa [splitQuoted] using ih
      · rw [if_neg hc, List.singleton_append, splitQuoted, if_neg hc]
        simpa [hpart.1] using ih
  · intro rest
    exact isClear_other (by decide) (by decide) (by decide) count rest

end Placeholder

/-! ### Tidy pieces without fragments -/

namespace Sql

open Statement (replaceMarkers ordinal replaceMarkers_marker replaceMarkers_append_of_notMem)

theorem endsApart_marker (value : Value) : endsApart (Piece.marker value).text = false := by
  show endsApart "?" = false
  decide

theorem head?_of_startsApart {t : String} (h : startsApart t = true) {p : Char → Bool}
    (hp : ∀ c, isCloser c = true → p c = false) : t.toList.head?.any p = false := by
  unfold startsApart at h
  cases ht : t.toList.head? with
  | none => rfl
  | some c =>
    rw [ht] at h
    exact hp c h

/-- A text that starts apart does not start with a marker. -/
theorem head?_replaceMarkers_of_startsApart {t : String} (h : startsApart t = true)
    (write : Nat → List Char) (position : Nat) :
    (replaceMarkers write position t.toList).head? = t.toList.head? := by
  unfold startsApart at h
  cases ht : t.toList with
  | nil => rfl
  | cons c cs =>
    rw [ht] at h
    have hc : c ≠ '?' := by
      rintro rfl
      have hcloser : isCloser '?' = true := h
      exact absurd hcloser (by decide)
    rw [Statement.replaceMarkers_cons hc]
    rfl

theorem isNameChar_of_isCloser {c : Char} (h : isCloser c = true) :
    Placeholder.isNameChar c = false := by
  simp only [isCloser, Bool.or_eq_true, beq_iff_eq] at h
  rcases h with ((rfl | rfl) | rfl) | rfl <;> decide

theorem isDigit_of_isCloser {c : Char} (h : isCloser c = true) : c.isDigit = false := by
  simp only [isCloser, Bool.or_eq_true, beq_iff_eq] at h
  rcases h with ((rfl | rfl) | rfl) | rfl <;> decide

/-- Plain characters stand in the way of no marker. -/
theorem isClear_append_of_plain (count : Nat) {cs : List Char}
    (h : ∀ c ∈ cs, isPlainChar c = true) (rest : List Char) :
    Placeholder.isClear count (cs ++ rest) = Placeholder.isClear count rest := by
  induction cs with
  | nil => rfl
  | cons c cs ih =>
    have hc := h c List.mem_cons_self
    have hne : ∀ d, isPlainChar d = false → c ≠ d := by
      rintro d hd rfl
      rw [hd] at hc
      cases hc
    have hquote : ¬ (c = '\'' ∨ c = '"') := by
      rintro (heq | heq)
      · exact hne _ (by decide) heq
      · exact hne _ (by decide) heq
    rw [List.cons_append,
      Placeholder.isClear_other hquote (hne _ (by decide)) (hne _ (by decide)),
      ih fun d hd => h d (List.mem_cons_of_mem c hd)]

/-- **All markers of a statement without fragments are clear.** -/
theorem isClear_text (count : Nat) : ∀ {pieces : List Piece}, Tidy pieces → fragments pieces = [] →
    Placeholder.isClear count (text pieces).toList = true
  | [], _, _ => by
    show Placeholder.isClear count [] = true
    rw [Placeholder.isClear]
  | .words t :: pieces, h, hf => by
    have ht : ∀ c ∈ t.toList, isPlainChar c = true := List.all_eq_true.mp h.1
    rw [text_cons, String.toList_append, Piece.text, isClear_append_of_plain count ht]
    exact isClear_text count h.2.2 hf
  | .name name :: pieces, h, hf => by
    rw [text_cons, String.toList_append, Piece.text, Placeholder.isClear_quoted]
    exact isClear_text count h.2.2 hf
  | .marker value :: pieces, h, hf => by
    have hapart : startsApart (text pieces) = true := startsApart_of_tidy h (endsApart_marker value)
    have hhead := head?_of_startsApart hapart fun c hc => isNameChar_of_isCloser hc
    have hmarker : "?".toList = ['?'] := rfl
    rw [text_cons, String.toList_append, Piece.text, hmarker, List.singleton_append,
      Placeholder.isClear_marker, hhead, isClear_text count h.2.2 hf]
    rfl
  | .fragment .. :: _, _, hf => by cases hf

/-- Where a reader of references stands outside of quotes behind some words. -/
def joinedBehind (joined : Bool) (words : List Char) : Bool :=
  words.getLast?.elim joined Stand.isWordChar

theorem references_words {words : List Char} (h : ∀ c ∈ words, isPlainChar c = true)
    (joined : Bool) (rest : List Char) : references (.outside joined) (words ++ rest) =
      references (.outside (joinedBehind joined words)) rest := by
  induction words generalizing joined with
  | nil => rfl
  | cons c cs ih =>
    have hc := h c List.mem_cons_self
    have hne : ∀ d, isPlainChar d = false → c ≠ d := by
      rintro d hd rfl
      rw [hd] at hc
      cases hc
    have hnext : Stand.next joined c = .outside (Stand.isWordChar c) := by
      rw [Stand.next, if_neg (hne _ (by decide)), if_neg fun hd => hne _ (by decide) hd.1]
    have hbehind : joinedBehind joined (c :: cs) = joinedBehind (Stand.isWordChar c) cs := by
      rw [joinedBehind, joinedBehind, List.getLast?_cons]
      cases cs.getLast? <;> rfl
    rw [List.cons_append, references, hnext, ih fun d hd => h d (List.mem_cons_of_mem c hd),
      hbehind]

/-- Words that end apart end no word. -/
theorem joinedBehind_of_endsApart {t : String} (hne : t ≠ "") (h : endsApart t = true)
    (joined : Bool) : joinedBehind joined t.toList = false := by
  unfold joinedBehind
  unfold endsApart at h
  cases hlast : t.toList.getLast? with
  | none => exact absurd (String.toList_eq_nil_iff.mp (List.getLast?_eq_none_iff.mp hlast)) hne
  | some c =>
    rw [hlast] at h
    simp only [Option.all_some, isOpener, Bool.or_eq_true, beq_iff_eq] at h
    show Stand.isWordChar c = false
    rcases h with rfl | rfl <;> decide

/-- The reader of references comes to a marker only where no word stands before it. -/
theorem references_replaceMarkers : ∀ {pieces : List Piece} (joined : Bool) (position : Nat),
    Tidy pieces → fragments pieces = [] → joined = false ∨ startsApart (text pieces) = true →
    references (.outside joined) (replaceMarkers ordinal position (text pieces).toList) =
      List.range' (position + 1) (bindings pieces).length
  | [], joined, position, _, _, _ => rfl
  | .words t :: pieces, joined, position, h, hf, hjoined => by
    have hmarker : '?' ∉ t.toList := notMem_of_isSpelled h.1 (by decide)
    have ht : ∀ c ∈ t.toList, isPlainChar c = true := List.all_eq_true.mp h.1
    have hbehind : joinedBehind joined t.toList = false ∨ startsApart (text pieces) = true := by
      by_cases hne : t = ""
      · rw [text_cons, Piece.text, hne, String.empty_append] at hjoined
        rw [hne]
        exact hjoined
      · exact h.2.1.imp_left fun hends => joinedBehind_of_endsApart hne hends joined
    rw [text_cons, String.toList_append, Piece.text, replaceMarkers_append_of_notMem _ hmarker,
      references_words ht]
    exact references_replaceMarkers _ position h.2.2 hf hbehind
  | .name name :: pieces, joined, position, h, hf, hjoined => by
    have hapart := startsApart_of_tidy h (endsApart_quoted name)
    have ih := references_replaceMarkers true position h.2.2 hf (.inr hapart)
    rw [text_cons, String.toList_append, Piece.text,
      replaceMarkers_append_of_notMem _ (notMem_quoted name), references_quoted, ih]
    rfl
  | .marker value :: pieces, joined, position, h, hf, hjoined => by
    have hapart : startsApart (text pieces) = true := startsApart_of_tidy h (endsApart_marker value)
    have ih := references_replaceMarkers true (position + 1) h.2.2 hf (.inr hapart)
    have hmarker : "?".toList = ['?'] := rfl
    have hstart : joined = false := by
      rcases hjoined with hjoined | hjoined
      · exact hjoined
      · rw [text_cons, Piece.text, startsApart_append_of_ne (by decide)] at hjoined
        exact absurd hjoined (by decide)
    have hdigit := head?_of_startsApart hapart fun c hc => isDigit_of_isCloser hc
    rw [← head?_replaceMarkers_of_startsApart hapart ordinal (position + 1)] at hdigit
    subst hstart
    rw [text_cons, String.toList_append, Piece.text, hmarker, List.singleton_append,
      replaceMarkers_marker, references_ordinal hdigit, ih, bindings_cons]
    rfl
  | .fragment .. :: _, _, _, _, hf, _ => by cases hf

end Sql

/-! ### On the wire -/

namespace Wire

/-- The values are written as the types that the server has inferred, one by one and in order. -/
theorem Server.encodeParameters_eq_ok {s : Server} {params : Parameters} {cells : List Cell}
    (h : s.encodeParameters params = .ok cells) :
    s.parameters.length = params.values.length ∧
      List.Forall₂ (fun (pair : SqlType × Value) cell => encode pair.1 pair.2 = .ok cell)
        (s.parameters.zip params.values) cells := by
  unfold encodeParameters at h
  split at h
  · next hlength =>
    refine ⟨hlength, (forall₂_of_mapM h).imp fun (type, value) cell hcell => ?_⟩
    dsimp only at hcell
    cases hencode : encode type value with
    | ok other =>
      rw [hencode] at hcell
      cases hcell
      rfl
    | error error =>
      rw [hencode] at hcell
      cases hcell
  · cases h

theorem Server.of_mem_exchange {s : Server} {route : Route} {bound : Bound} {d : Delivery}
    (h : d ∈ (s.exchange route bound).2) :
    d.sql = toPositional bound.params bound.sql ∧
      ∀ cells, d.parameters = some cells → s.encodeParameters bound.params = .ok cells := by
  unfold exchange at h
  dsimp only at h
  split_ifs at h
  · cases h
  · cases h
  · obtain rfl := List.mem_singleton.mp h
    exact ⟨rfl, fun cells hcells => by cases hcells⟩
  · split at h
    · obtain rfl := List.mem_singleton.mp h
      exact ⟨rfl, fun cells hcells => by cases hcells⟩
    · next heq =>
      obtain rfl := List.mem_singleton.mp h
      refine ⟨rfl, fun cells hcells => ?_⟩
      cases hcells
      exact heq

end Wire

/-! ### Statements -/

/-- **A bound statement has its parameters by position:** its text refers to them by `$1`, `$2`, …,
each once and in order, and they are the values of the statement. -/
structure Statement.Positioned (st : Statement) (bound : Bound) : Prop where
  /-- The numbers stand in the places of the markers, and all else is unchanged. -/
  text : toPositional bound.params bound.sql = st.numberedText
  references : references (.outside false) st.numberedText.toList =
    List.range' 1 bound.params.values.length
  values : bound.params.values = st.bindings

theorem Builder.exists_bind_positioned {b : Builder} (h : b.fragments = []) :
    ∃ bound, b.statement.bind = .ok bound ∧ b.statement.Positioned bound := by
  have hf : Sql.fragments b.render = [] := by rw [b.fragments_render, h]
  have heven : b.statement.Even := by
    refine Sql.even_statement b.plain_render ?_
    rw [hf]
    simp
  have hclear := Sql.isClear_text b.statement.bindings.length b.tidy_render hf
  refine ⟨_, Statement.bind_eq_ok.mpr ⟨heven, rfl⟩, ?_, ?_, rfl⟩
  · exact (Statement.toPositional_named _ (Nat.le_of_eq heven)).mpr hclear
  · rw [Statement.numberedText, String.toList_ofList]
    exact Sql.references_replaceMarkers false 0 b.tidy_render hf (.inl rfl)

/-- **A request without fragments sends its parameters by position.** Its statement is bound and
handed to the executor; `$1`, `$2`, … stand in the places of the markers, whatever the names in the
statement are; and a server gets this text and, one by one, the values of the statement. -/
theorem Request.exists_positioned {r : Request} {st : Statement} (hr : r.fragments = [])
    (h : r.plan = .ok (.send st)) :
    ∃ bound, st.bind = .ok bound ∧ st.Positioned bound ∧
      (∀ {σ : Type} (logging : Logging) (executor : Executor σ) (state : σ),
        (r.run logging executor state).1.sent = [bound]) ∧
      ∀ (server : Wire.Server) (route : Wire.Route), ∀ d ∈ (server.exchange route bound).2,
        d.sql = st.numberedText ∧ ∀ cells, d.parameters = some cells →
          server.parameters.length = st.bindings.length ∧
          List.Forall₂ (fun (pair : Wire.SqlType × Value) cell =>
            Wire.encode pair.1 pair.2 = .ok cell) (server.parameters.zip st.bindings) cells := by
  obtain ⟨b, hb, rfl⟩ := builds_of_plan h
  have hfragments : b.fragments = [] := List.subset_nil.mp (hr ▸ hb.fragments)
  obtain ⟨bound, hbind, hpositioned⟩ := Builder.exists_bind_positioned hfragments
  refine ⟨bound, hbind, hpositioned, ?_, ?_⟩
  · intro σ logging executor state
    simp only [run, h, dispatch, hbind]
  · intro server route d hd
    obtain ⟨hsql, hcells⟩ := Wire.Server.of_mem_exchange hd
    refine ⟨hsql.trans hpositioned.text, fun cells hsome => ?_⟩
    rw [← hpositioned.values]
    exact Wire.Server.encodeParameters_eq_ok (hcells cells hsome)

/-- A reading with colons, names of parameters, quotes and a letter beyond ASCII in its names. -/
def quotedRequest : Request :=
  .select
    { Scope.ofTable "\":param1\".\"it's\"" with
      filter := some (.any [.equals "\"a\"\":$1\"" (.bool true),
        .deferred 0 (.ok (.oneOf "\"é::\"" [.text "?", .null]))]) }
    ["b"]

theorem Request.exists_positioned_quotedRequest :
    quotedRequest.fragments = [] ∧ ∃ st, quotedRequest.plan = .ok (.send st) ∧
      st.numberedText = "SELECT \"b\" FROM \":param1\".\"it's\" WHERE \"a\"\":$1\" = $1 OR " ++
        "\"é::\" IN ($2, $3)" ∧
      ∃ bound, st.bind = .ok bound ∧ st.Positioned bound ∧
        (quotedRequest.run .standard (fun (n : Nat) _ => (⟨.ok [], 0⟩, n)) 0).1.sent = [bound] := by
  have hfragments : quotedRequest.fragments = [] := by decide +kernel
  have hplan : quotedRequest.plan = .ok (.send
      { sql := "SELECT \"b\" FROM \":param1\".\"it's\" WHERE \"a\"\":$1\" = ? OR \"é::\" IN (?, ?)"
        bindings := [.bool true, .text "?", .null] }) := by decide +kernel
  obtain ⟨bound, hbind, hpositioned, hsent, -⟩ := exists_positioned hfragments hplan
  exact ⟨hfragments, _, hplan, by decide +kernel, bound, hbind, hpositioned, hsent _ _ _⟩

end Rowset
