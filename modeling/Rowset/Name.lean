import Rowset.Fault

/-!
# Names

A name of a table or a column has one or more parts joined by dots. It is read from text, where a
part is bare (letters, digits, `_` and `$`, not led by a digit or `$`) or stands in double quotes,
which are doubled inside it; and it is written with every part in quotes. A part is never empty and
holds neither NUL nor `?`, the marker of bound values: `mem_of_splitParts?` carries this from the
text to the parts, so the type can promise it.
-/

namespace Rowset

/-- Holds of the parts that a name can have: not empty, without NUL and without `?`. -/
def ProperPart (part : String) : Prop :=
  part ≠ "" ∧ '\x00' ∉ part.toList ∧ '?' ∉ part.toList

/-- The name of a table or a column. -/
structure Name where
  parts : List String
  parts_ne_nil : parts ≠ []
  proper : ∀ part ∈ parts, ProperPart part

namespace Name

instance : DecidableEq Name := fun a b =>
  decidable_of_iff (a.parts = b.parts)
    ⟨fun h => by cases a; cases b; cases h; rfl, fun h => h ▸ rfl⟩

/-- What is wrong with a text that is no name. -/
inductive Problem where
  | empty
  | nul
  | marker (text : String)
  | trailingDot (text : String)
  | expectedDot (text : String) (got : Char)
  | unclosed (text : String)
  | emptyQuoted
  | invalidCharacter (text : String) (got : Char)
  | emptySegment (text : String)
  deriving DecidableEq, Repr

/-- The words for what is wrong with a name. -/
def Problem.message : Problem → String
  | .empty => "Identifier cannot be empty"
  | .nul => "Identifier cannot contain NUL character"
  | .marker text => "'?' is not allowed in identifier '" ++ text ++ "'"
  | .trailingDot text => "Trailing '.' in identifier '" ++ text ++ "'"
  | .expectedDot text got =>
    "Expected '.' between identifier parts in '" ++ text ++ "', got '" ++ got.toString ++ "'"
  | .unclosed text => "Unclosed quoted identifier '" ++ text ++ "'"
  | .emptyQuoted => "Empty quoted identifier"
  | .invalidCharacter text got =>
    "Invalid character '" ++ got.toString ++ "' in identifier '" ++ text ++ "'"
  | .emptySegment text => "Empty identifier segment in '" ++ text ++ "'"

/-! ### Reading -/

/-- Holds of the characters that may lead a bare part. -/
def isLeading (c : Char) : Bool :=
  c == '_' || c.isAlpha

/-- Holds of the characters that may follow in a bare part. -/
def isFollowing (c : Char) : Bool :=
  c == '_' || c == '$' || c.isAlphanum

/-- The first character that a bare part may not have where it stands. -/
def firstInvalid? : List Char → Option Char
  | [] => none
  | c :: cs => if isLeading c then cs.find? fun d => !isFollowing d else some c

/-- Takes the text up to the closing quote, with doubled quotes made single, and what follows. -/
def takeQuoted? : List Char → Option (List Char × List Char)
  | [] => none
  | '"' :: '"' :: cs => (takeQuoted? cs).map fun (part, rest) => ('"' :: part, rest)
  | '"' :: cs => some ([], cs)
  | c :: cs => (takeQuoted? cs).map fun (part, rest) => (c :: part, rest)

/-- Takes the first part of a name. The whole text is given for the words of a problem. -/
def takePart (text : String) (cs : List Char) : Except Problem (List Char × List Char) :=
  match cs with
  | '"' :: cs =>
    match takeQuoted? cs with
    | none => .error (.unclosed text)
    | some ([], _) => .error .emptyQuoted
    | some (c :: part, rest) => .ok (c :: part, rest)
  | cs =>
    match firstInvalid? (cs.takeWhile (· != '.')), cs.takeWhile (· != '.') with
    | some got, _ => .error (.invalidCharacter text got)
    | none, [] => .error (.emptySegment text)
    | none, c :: part => .ok (c :: part, cs.dropWhile (· != '.'))

theorem length_takeQuoted? {cs part rest : List Char} (h : takeQuoted? cs = some (part, rest)) :
    rest.length < cs.length := by
  fun_induction takeQuoted? cs generalizing part with
  | case1 => simp at h
  | case2 cs ih =>
    obtain ⟨⟨p, r⟩, hp, he⟩ := Option.map_eq_some_iff.1 h
    cases he
    have := ih hp
    simp only [List.length_cons]
    omega
  | case3 => cases h; simp
  | case4 _ _ _ _ ih =>
    obtain ⟨⟨p, r⟩, hp, he⟩ := Option.map_eq_some_iff.1 h
    cases he
    have := ih hp
    simp only [List.length_cons]
    omega

theorem length_takePart {text : String} {cs part rest : List Char}
    (h : takePart text cs = .ok (part, rest)) : rest.length < cs.length := by
  unfold takePart at h
  split at h
  · split at h
    · cases h
    · cases h
    · next hq =>
      cases h
      exact Nat.lt_succ_of_lt (length_takeQuoted? hq)
  · split at h
    · cases h
    · cases h
    · next _ _ _ hw =>
      cases h
      have := congrArg List.length (List.takeWhile_append_dropWhile (p := (· != '.')) (l := cs))
      simp only [List.length_append, hw, List.length_cons] at this
      omega

/-- Splits a text into the parts of the name that it is. -/
def splitParts (text : String) (cs : List Char) : Except Problem (List (List Char)) :=
  match _h : takePart text cs with
  | .error problem => .error problem
  | .ok (part, rest) =>
    match rest with
    | [] => .ok [part]
    | d :: rest =>
      if d = '.' then
        if rest = [] then .error (.trailingDot text)
        else
          match splitParts text rest with
          | .error problem => .error problem
          | .ok parts => .ok (part :: parts)
      else .error (.expectedDot text d)
termination_by cs.length
decreasing_by
  have := length_takePart _h
  simp only [List.length_cons] at this
  omega

theorem mem_of_takeQuoted? {cs part rest : List Char} (h : takeQuoted? cs = some (part, rest)) :
    (∀ c ∈ part, c ∈ cs) ∧ ∀ c ∈ rest, c ∈ cs := by
  fun_induction takeQuoted? cs generalizing part with
  | case1 => simp at h
  | case2 cs ih =>
    obtain ⟨⟨p, r⟩, hp, he⟩ := Option.map_eq_some_iff.1 h
    cases he
    have := ih hp
    grind
  | case3 => cases h; simp_all
  | case4 _ _ _ _ ih =>
    obtain ⟨⟨p, r⟩, hp, he⟩ := Option.map_eq_some_iff.1 h
    cases he
    have := ih hp
    grind

theorem mem_of_takePart {text : String} {cs part rest : List Char}
    (h : takePart text cs = .ok (part, rest)) :
    part ≠ [] ∧ (∀ c ∈ part, c ∈ cs) ∧ ∀ c ∈ rest, c ∈ cs := by
  unfold takePart at h
  split at h
  · split at h
    · cases h
    · cases h
    · next hq =>
      cases h
      have := mem_of_takeQuoted? hq
      grind
  · split at h
    · cases h
    · cases h
    · next _ c part hw =>
      cases h
      refine ⟨by simp, fun c hc => ?_, fun c hc => ?_⟩
      · exact List.takeWhile_subset _ (hw ▸ hc)
      · exact List.dropWhile_subset _ hc

theorem mem_of_splitParts {text : String} {cs : List Char} {parts : List (List Char)}
    (h : splitParts text cs = .ok parts) :
    parts ≠ [] ∧ ∀ part ∈ parts, part ≠ [] ∧ ∀ c ∈ part, c ∈ cs := by
  fun_induction splitParts text cs generalizing parts with
  | case1 => cases h
  | case2 cs part hp =>
    cases h
    have := mem_of_takePart hp
    grind
  | case3 => cases h
  | case4 => cases h
  | case5 cs part rest _ more hr hp _ ih =>
    cases h
    have := mem_of_takePart hp
    have := ih hr
    grind
  | case6 => cases h

/-- **Reads a name.** What no part may hold is looked for first. -/
def read (text : String) : Except Problem Name :=
  if text = "" then .error .empty
  else if hnul : '\x00' ∈ text.toList then .error .nul
  else if hmarker : '?' ∈ text.toList then .error (.marker text)
  else
    match h : splitParts text text.toList with
    | .error problem => .error problem
    | .ok parts => .ok
      { parts := parts.map String.ofList
        parts_ne_nil := by simpa using (mem_of_splitParts h).1
        proper := by
          intro part hpart
          obtain ⟨cs, hcs, rfl⟩ := List.mem_map.1 hpart
          obtain ⟨hne, hmem⟩ := (mem_of_splitParts h).2 cs hcs
          refine ⟨fun h => hne (by simpa using congrArg String.toList h), ?_, ?_⟩ <;>
            rw [String.toList_ofList] <;> intro hc
          · exact hnul (hmem _ hc)
          · exact hmarker (hmem _ hc) }

/-- Reads a name, with a problem turned into a fault. -/
def parse (text : String) : Except Fault Name :=
  match read text with
  | .error problem => .error (.validation problem.message)
  | .ok name => .ok name

/-- Reads names in order, up to the first that is none. -/
def parseAll (texts : List String) : Except Fault (List Name) :=
  texts.mapM parse

/-! ### Writing -/

/-- A part in double quotes, with the quotes inside it doubled. -/
def quotePart (part : String) : String :=
  String.ofList
    ('"' :: part.toList.flatMap (fun c => if c = '"' then ['"', '"'] else [c]) ++ ['"'])

/-- **The text of a name,** every part in quotes. -/
def quoted (name : Name) : String :=
  String.intercalate "." (name.parts.map quotePart)

end Name

end Rowset
