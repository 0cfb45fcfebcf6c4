import Rowset.Name
import Mathlib.Tactic.SplitIfs

/-!
# Reading a predicate: tokens

A text is cut into tokens by one pass over its characters. What stands in quotes is one token,
whatever it holds, and a comment is none. The pass is in a `Mode`, which says what it is in the
middle of; a text that ends within quotes or a comment is no text of its own and has no tokens.

A text with tokens can be followed by a delimiter: whatever it ends with ends there
(`tokens?_append`). So the tokens of texts that are put together with blanks, commas, dots and
closing parentheses are those of the parts.
-/

namespace Rowset.Reading

/-- What opens and closes a nested part: parentheses, square brackets, and the words `CASE` and
`END`. -/
inductive Bracket where
  | round
  | square
  | choice
  deriving DecidableEq, Repr

/-- A token of a text. -/
inductive Token where
  /-- A word or a number, in lower case. -/
  | word (text : String)
  /-- A name or a text in quotes, as it is written. -/
  | quoted (text : String)
  /-- A marker of a bound value. -/
  | marker
  /-- Any other character. -/
  | symbol (c : Char)
  | opening (bracket : Bracket)
  | closing (bracket : Bracket)
  deriving DecidableEq, Repr

/-- The quotes, of a text and of a name. -/
inductive Quote where
  | single
  | double
  deriving DecidableEq, Repr

/-- The character of a quote. -/
def Quote.char : Quote → Char
  | .single => '\''
  | .double => '"'

/-- What the pass over a text is in the middle of. Where a token is still being read, the mode holds
what has been read of it. -/
inductive Mode where
  | ground
  | word (read : List Char)
  /-- Within quotes; in a text marked by a leading `E` a backslash takes the next character. -/
  | quoted (quote : Quote) (escapes : Bool) (read : List Char)
  /-- Behind a backslash within quotes. -/
  | escaped (read : List Char)
  /-- Behind a closing quote, which may turn out to be the first of two. -/
  | closed (quote : Quote) (escapes : Bool) (read : List Char)
  | dash
  | slash
  | lineComment
  /-- In a comment within as many others, behind a character of it. -/
  | comment (depth : Nat) (last : Char)
  /-- Behind a dollar sign and what may be the tag of a text in dollar quotes. -/
  | dollar (tag : List Char)
  /-- Within dollar quotes, and how much of a closing tag has been read since the last dollar
  sign. -/
  | dollarQuoted (tag : List Char) (since : Option (List Char)) (read : List Char)
  deriving DecidableEq, Repr

/-- Holds of the characters between tokens. -/
def isBlank (c : Char) : Bool :=
  c.isWhitespace || c == '\x0b' || c == '\x0c'

/-- Holds of the characters of words, names without quotes and numbers. -/
def isWordChar (c : Char) : Bool :=
  c.isAlphanum || c == '_' || c == '$' || 127 < c.toNat

/-- The token of a word. -/
def wordToken (read : List Char) : Token :=
  let text := String.ofList (read.map Char.toLower)
  if text = "case" then .opening .choice
  else if text = "end" then .closing .choice
  else .word text

namespace Mode

/-- The first character of a token: what it is a token of already, and the mode behind it. -/
def start (c : Char) : List Token × Mode :=
  if isBlank c then ([], .ground)
  else if c = '(' then ([.opening .round], .ground)
  else if c = ')' then ([.closing .round], .ground)
  else if c = '[' then ([.opening .square], .ground)
  else if c = ']' then ([.closing .square], .ground)
  else if c = '?' then ([.marker], .ground)
  else if c = '\'' then ([], .quoted .single false [c])
  else if c = '"' then ([], .quoted .double false [c])
  else if c = '-' then ([], .dash)
  else if c = '/' then ([], .slash)
  else if c = '$' then ([], .dollar [])
  else if isWordChar c then ([], .word [c])
  else ([.symbol c], .ground)

/-- The tokens that are still to come where a text ends; there are none in quotes and comments. -/
def finish? : Mode → Option (List Token)
  | .ground => some []
  | .word read => some [wordToken read]
  | .closed _ _ read => some [.quoted (String.ofList read)]
  | .dash => some [.symbol '-']
  | .slash => some [.symbol '/']
  | .dollar tag => some (.symbol '$' :: if tag.isEmpty then [] else [wordToken tag])
  | _ => none

/-- Ends what the pass is in the middle of before a character. -/
def leave (m : Mode) (c : Char) : List Token × Mode :=
  (m.finish?.getD [] ++ (start c).1, (start c).2)

/-- One step of the pass. -/
def step : Mode → Char → List Token × Mode
  | .ground, c => start c
  | .word read, c =>
    if isWordChar c then ([], .word (read ++ [c]))
    else if c = '\'' ∧ read.map Char.toLower = ['e'] then ([], .quoted .single true (read ++ [c]))
    else (Mode.word read).leave c
  | .quoted quote escapes read, c =>
    if c = quote.char then ([], .closed quote escapes (read ++ [c]))
    else if escapes ∧ c = '\\' then ([], .escaped (read ++ [c]))
    else ([], .quoted quote escapes (read ++ [c]))
  | .escaped read, c => ([], .quoted .single true (read ++ [c]))
  | .closed quote escapes read, c =>
    if c = quote.char then ([], .quoted quote escapes (read ++ [c]))
    else (Mode.closed quote escapes read).leave c
  | .dash, c => if c = '-' then ([], .lineComment) else Mode.dash.leave c
  | .slash, c => if c = '*' then ([], .comment 0 ' ') else Mode.slash.leave c
  | .lineComment, c => ([], if c = '\n' ∨ c = '\r' then .ground else .lineComment)
  | .comment depth last, c =>
    if last = '*' ∧ c = '/' then
      ([], match depth with
        | 0 => .ground
        | depth + 1 => .comment depth ' ')
    else if last = '/' ∧ c = '*' then ([], .comment (depth + 1) ' ')
    else ([], .comment depth c)
  | .dollar tag, c =>
    if c = '$' then ([], .dollarQuoted tag none ('$' :: tag ++ ['$']))
    else if isWordChar c ∧ ¬ (tag = [] ∧ c.isDigit) then ([], .dollar (tag ++ [c]))
    else (Mode.dollar tag).leave c
  | .dollarQuoted tag since read, c =>
    if c = '$' then
      if since = some tag then ([.quoted (String.ofList (read ++ [c]))], .ground)
      else ([], .dollarQuoted tag (some []) (read ++ [c]))
    else ([], .dollarQuoted tag (since.map (· ++ [c])) (read ++ [c]))

end Mode

/-- The tokens of a text from a mode on. -/
def scan (m : Mode) : List Char → Option (List Token)
  | [] => m.finish?
  | c :: cs => (scan (m.step c).2 cs).map ((m.step c).1 ++ ·)

/-- **The tokens of a text.** -/
def tokens? (text : String) : Option (List Token) :=
  scan .ground text.toList

/-! ### Texts put together -/

/-- Holds of the characters at which a token ends, whatever token it is. -/
def isDelimiter (c : Char) : Bool :=
  !(isWordChar c || c == '\'' || c == '"' || c == '-' || c == '*' || c == '$')

/-- Holds of the texts that are empty or start with a delimiter. -/
def isDelimited (text : String) : Bool :=
  match text.toList with
  | [] => true
  | c :: _ => isDelimiter c

theorem step_of_isDelimiter {m : Mode} {c : Char} {ts : List Token} (hc : isDelimiter c = true)
    (hm : m.finish? = some ts) : m.step c = (ts ++ (Mode.start c).1, (Mode.start c).2) := by
  simp only [isDelimiter, Bool.not_eq_true', Bool.or_eq_false_iff, beq_eq_false_iff_ne] at hc
  obtain ⟨⟨⟨⟨⟨hword, hsingle⟩, hdouble⟩, hdash⟩, hstar⟩, hdollar⟩ := hc
  have hleave : m.leave c = (ts ++ (Mode.start c).1, (Mode.start c).2) := by
    rw [Mode.leave, hm, Option.getD_some]
  rw [← hleave]
  cases m with
  | ground =>
    cases hm
    exact hleave.symm
  | word read => simp [Mode.step, hword, hsingle]
  | closed quote escapes read =>
    have hquote : c ≠ quote.char := by
      cases quote
      · exact hsingle
      · exact hdouble
    simp [Mode.step, hquote]
  | dash => simp [Mode.step, hdash]
  | slash => simp [Mode.step, hstar]
  | dollar tag => simp [Mode.step, hdollar, hword]
  | quoted | escaped | lineComment | comment | dollarQuoted => cases hm

theorem scan_append {d : Char} (hd : isDelimiter d = true) (ds : List Char) :
    ∀ {cs : List Char} {m : Mode} {ts : List Token}, scan m cs = some ts →
      scan m (cs ++ d :: ds) = (scan .ground (d :: ds)).map (ts ++ ·)
  | [], m, ts, h => by
    have hstep := step_of_isDelimiter hd h
    rw [List.nil_append, scan, scan, hstep, Option.map_map]
    simp only [Function.comp_def, List.append_assoc]
    rfl
  | c :: cs, m, ts, h => by
    rw [scan] at h
    obtain ⟨us, hus, rfl⟩ := Option.map_eq_some_iff.mp h
    rw [List.cons_append, scan, scan_append hd ds hus, Option.map_map]
    simp only [Function.comp_def, List.append_assoc]

/-- **Tokens of a text and then of another,** which starts with a delimiter. -/
theorem tokens?_append {a b : String} {ts : List Token} (ha : tokens? a = some ts)
    (hb : isDelimited b = true) : tokens? (a ++ b) = (tokens? b).map (ts ++ ·) := by
  unfold tokens? at *
  unfold isDelimited at hb
  rw [String.toList_append]
  cases hcs : b.toList with
  | nil => simpa [scan, Mode.finish?] using ha
  | cons d ds =>
    rw [hcs] at hb
    exact scan_append hb ds ha

/-- A text of one character that leads back to the ground mode comes before any other text. -/
theorem tokens?_single_append {a : String} {c : Char} {ts : List Token} (ha : a.toList = [c])
    (hc : Mode.start c = (ts, .ground)) (b : String) :
    tokens? (a ++ b) = (tokens? b).map (ts ++ ·) := by
  unfold tokens?
  rw [String.toList_append, ha, List.singleton_append, scan, Mode.step, hc]

theorem tokens?_blank_append (b : String) : tokens? (" " ++ b) = tokens? b := by
  rw [@tokens?_single_append " " ' ' [] (by decide) (by decide)]
  exact Option.map_id'

theorem tokens?_opening_append (b : String) :
    tokens? ("(" ++ b) = (tokens? b).map (.opening .round :: ·) :=
  @tokens?_single_append "(" '(' [.opening .round] (by decide) (by decide) b

theorem isDelimited_append {a : String} (b : String) (ha : a ≠ "") (h : isDelimited a = true) :
    isDelimited (a ++ b) = true := by
  unfold isDelimited at *
  rw [String.toList_append]
  cases hcs : a.toList with
  | nil => exact absurd (String.toList_eq_nil_iff.mp hcs) ha
  | cons c cs =>
    rw [hcs] at h
    exact h

/-! ### Names -/

/-- The tokens of a name by its parts. -/
def partTokens : List String → List Token
  | [] => []
  | [part] => [.quoted (Name.quotePart part)]
  | part :: parts => .quoted (Name.quotePart part) :: .symbol '.' :: partTokens parts

theorem mem_partTokens {t : Token} : ∀ {parts : List String}, t ∈ partTokens parts →
    (∃ part, t = .quoted (Name.quotePart part)) ∨ t = .symbol '.'
  | [part], h => by
    rw [partTokens, List.mem_singleton] at h
    exact Or.inl ⟨part, h⟩
  | part :: next :: parts, h => by
    rcases List.mem_cons.mp h with h | h
    · exact Or.inl ⟨part, h⟩
    · rcases List.mem_cons.mp h with h | h
      · exact Or.inr h
      · exact mem_partTokens h

/-- The characters of a part with its quotes doubled. -/
def doubled (cs : List Char) : List Char :=
  cs.flatMap fun c => if c = '"' then ['"', '"'] else [c]

/-- Doubled quotes leave a quoted name open. -/
theorem scan_doubled (ds : List Char) : ∀ cs read : List Char,
    scan (.quoted .double false read) (doubled cs ++ ds) =
      scan (.quoted .double false (read ++ doubled cs)) ds
  | [], read => by simp [doubled]
  | c :: cs, read => by
    have ih := scan_doubled ds cs
    by_cases hc : c = '"'
    · have hd : doubled (c :: cs) = '"' :: '"' :: doubled cs := by simp [doubled, hc]
      rw [hd]
      simp [scan, Mode.step, Quote.char, ih]
    · have hd : doubled (c :: cs) = c :: doubled cs := by simp [doubled, hc]
      rw [hd]
      simp [scan, Mode.step, Quote.char, hc, ih]

theorem tokens?_quotePart (part : String) :
    tokens? (Name.quotePart part) = some [.quoted (Name.quotePart part)] := by
  have hpart : Name.quotePart part = String.ofList ('"' :: doubled part.toList ++ ['"']) := rfl
  have hstart : Mode.step .ground '"' = ([], .quoted .double false ['"']) := by decide
  unfold tokens?
  rw [hpart, String.toList_ofList, List.cons_append, scan, hstart, scan_doubled]
  simp [scan, Mode.step, Quote.char, Mode.finish?]

/-- A name has a token for each part, with dots between them. -/
theorem tokens?_quoted (name : Name) : tokens? name.quoted = some (partTokens name.parts) := by
  have hparts : ∀ parts : List String, parts ≠ [] →
      tokens? (".".intercalate (parts.map Name.quotePart)) = some (partTokens parts) := by
    intro parts hne
    induction parts with
    | nil => exact absurd rfl hne
    | cons part parts ih =>
      cases parts with
      | nil =>
        rw [List.map_cons, List.map_nil, String.intercalate_singleton]
        exact tokens?_quotePart part
      | cons next parts =>
        rw [List.map_cons, List.map_cons, String.intercalate_cons_cons, String.append_assoc,
          tokens?_append (tokens?_quotePart part) (isDelimited_append _ (by decide) (by decide)),
          @tokens?_single_append "." '.' [.symbol '.'] (by decide) (by decide), ← List.map_cons,
          ih (List.cons_ne_nil _ _)]
        rfl
  exact hparts name.parts name.parts_ne_nil

end Rowset.Reading
