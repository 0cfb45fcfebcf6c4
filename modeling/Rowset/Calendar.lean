import Rowset.Text.Blank
import Rowset.Text.Integer

/-!
# The calendar

Dates of the Gregorian calendar, carried back without end and with a year zero, and instants as
nanoseconds. Both are counted from the first moment of the year 2000. A date is read leniently, with
blanks before each number; an instant with an offset from universal time is read strictly.
-/

namespace Rowset.Calendar

/-- A year, a month and a day. -/
structure Date where
  year : Int
  month : Nat
  day : Nat
  deriving DecidableEq, Repr

/-- Holds of the years with a leap day. -/
def isLeap (year : Int) : Bool :=
  year % 4 == 0 && (year % 100 != 0 || year % 400 == 0)

/-- How many days a month has. -/
def monthLength (year : Int) (month : Nat) : Nat :=
  if month = 2 then (if isLeap year then 29 else 28)
  else if month = 4 ∨ month = 6 ∨ month = 9 ∨ month = 11 then 30
  else 31

/-- Holds of the years that dates are kept for. -/
def yearInRange (year : Int) : Bool :=
  -262143 ≤ year && year ≤ 262142

namespace Date

/-- Holds of the dates that exist and are kept. -/
def exists? (d : Date) : Bool :=
  yearInRange d.year && 1 ≤ d.month && d.month ≤ 12 && 1 ≤ d.day &&
    d.day ≤ monthLength d.year d.month

/-- The days from the first of March of the year zero to the first of January 2000. -/
def marchOffset : Int := 730425

/-- How many days a date is after the first of January 2000. Years are counted from March, so that
the leap day is the last one of its year, and months have a regular pattern of lengths. -/
def toDays (d : Date) : Int :=
  let year := if d.month ≤ 2 then d.year - 1 else d.year
  let month := (d.month + 9) % 12
  365 * year + year / 4 - year / 100 + year / 400 + ((153 * month + 2) / 5 : Nat) + d.day - 1 -
    marchOffset

/-- The date some days after the first of January 2000: the cycle of four hundred years, the year in
it and the day of that year are found in turn. -/
def ofDays (days : Int) : Date :=
  let n := days + marchOffset
  let cycle := n / 146097
  let dayOfCycle := (n % 146097).toNat
  let yearOfCycle :=
    (dayOfCycle - dayOfCycle / 1460 + dayOfCycle / 36524 - dayOfCycle / 146096) / 365
  let dayOfYear := dayOfCycle - (365 * yearOfCycle + yearOfCycle / 4 - yearOfCycle / 100)
  let month := (5 * dayOfYear + 2) / 153
  let year := cycle * 400 + yearOfCycle
  { year := if month < 10 then year else year + 1
    month := if month < 10 then month + 3 else month - 9
    day := dayOfYear - (153 * month + 2) / 5 + 1 }

end Date

/-! ### Reading -/

/-- Takes between one and `most` digits from the front. -/
def takeDigits (most : Nat) (cs : List Char) : Option (Nat × List Char) :=
  let run := (cs.take most).takeWhile Char.isDigit
  if run.isEmpty then none else some (Text.ofDigits run, cs.drop run.length)

/-- Takes blanks and then between one and `most` digits from the front. -/
def takeNumber (most : Nat) (cs : List Char) : Option (Nat × List Char) :=
  takeDigits most (cs.dropWhile Text.isBlank)

/-- Takes blanks and then a year: four digits at most, or a sign and any number of digits. -/
def takeYear (cs : List Char) : Option (Int × List Char) :=
  match cs.dropWhile Text.isBlank with
  | '-' :: cs => (takeDigits cs.length cs).map fun (n, rest) => (-(n : Int), rest)
  | '+' :: cs => (takeDigits cs.length cs).map fun (n, rest) => ((n : Int), rest)
  | cs => (takeDigits 4 cs).map fun (n, rest) => ((n : Int), rest)

/-- Takes one given character from the front. -/
def takeChar (wanted : Char) : List Char → Option (List Char)
  | [] => none
  | c :: cs => if c = wanted then some cs else none

/-- Takes a date from the front. -/
def takeDate (cs : List Char) : Option (Date × List Char) := do
  let (year, cs) ← takeYear cs
  let cs ← takeChar '-' cs
  let (month, cs) ← takeNumber 2 cs
  let cs ← takeChar '-' cs
  let (day, cs) ← takeNumber 2 cs
  let date : Date := ⟨year, month, day⟩
  if date.exists? then some (date, cs) else none

/-- Takes a fraction of a second from the front, in nanoseconds; digits after the ninth are
dropped. -/
def takeFraction : List Char → Option (Nat × List Char)
  | '.' :: cs =>
    let run := cs.takeWhile Char.isDigit
    if run.isEmpty then none
    else
      let nine := run.take 9
      some (Text.ofDigits nine * Nat.pow 10 (9 - nine.length), cs.drop run.length)
  | cs => some (0, cs)

/-- The nanoseconds of a time of day. The sixtieth second of a minute is the first one of the
next. -/
def timeOfDay? (hour minute second nanos : Nat) : Option Int :=
  if hour < 24 ∧ minute < 60 ∧ second ≤ 60 then
    some (((hour * 60 + minute) * 60 + second) * 1000000000 + nanos : Nat)
  else none

/-- The nanoseconds of a day. -/
def dayNanos : Int := 86400000000000

/-- Reads a time of day with nothing after it. -/
def readTime? (cs : List Char) : Option Int := do
  let (hour, cs) ← takeNumber 2 cs
  let cs ← takeChar ':' cs
  let (minute, cs) ← takeNumber 2 cs
  let cs ← takeChar ':' cs
  let (second, cs) ← takeNumber 2 cs
  let (nanos, cs) ← takeFraction cs
  if cs.isEmpty then timeOfDay? hour minute second nanos else none

/-- Reads a date with nothing after it. -/
def Date.read? (cs : List Char) : Option Date := do
  let (date, cs) ← takeDate cs
  if cs.isEmpty then some date else none

/-- Takes exactly so many digits from the front. -/
def takeExactly (count : Nat) (cs : List Char) : Option (Nat × List Char) :=
  let run := cs.take count
  if run.length = count ∧ run.all Char.isDigit then some (Text.ofDigits run, cs.drop count)
  else none

/-- Reads an offset from universal time in seconds, with nothing after it. -/
def readOffset? (cs : List Char) : Option Int :=
  match cs with
  | ['Z'] => some 0
  | ['z'] => some 0
  | sign :: cs => do
    let negative ←
      if sign = '+' then some false
      else if sign = '-' ∨ sign = '\u2212' then some true
      else none
    let (hours, cs) ← takeExactly 2 cs
    let cs ← takeChar ':' cs
    let (minutes, cs) ← takeExactly 2 cs
    if cs.isEmpty ∧ hours < 24 ∧ minutes < 60 then
      let seconds : Int := (hours * 60 + minutes) * 60
      some (if negative then -seconds else seconds)
    else none
  | [] => none

/-- Reads an instant that has an offset from universal time. All numbers have their full width. -/
def readZoned? (cs : List Char) : Option Int := do
  let (year, cs) ← takeExactly 4 cs
  let cs ← takeChar '-' cs
  let (month, cs) ← takeExactly 2 cs
  let cs ← takeChar '-' cs
  let (day, cs) ← takeExactly 2 cs
  let date : Date := ⟨year, month, day⟩
  let cs ← ((takeChar 'T' cs).or (takeChar 't' cs)).or (takeChar ' ' cs)
  let (hour, cs) ← takeExactly 2 cs
  let cs ← takeChar ':' cs
  let (minute, cs) ← takeExactly 2 cs
  let cs ← takeChar ':' cs
  let (second, cs) ← takeExactly 2 cs
  let (nanos, cs) ← takeFraction cs
  let offset ← readOffset? cs
  let time ← timeOfDay? hour minute second nanos
  if date.exists? then some (date.toDays * dayNanos + time - offset * 1000000000) else none

/-- Reads a date and a time with a `T` between them. -/
def readJoined? (cs : List Char) : Option Int := do
  let (date, cs) ← takeDate cs
  let cs ← takeChar 'T' cs
  let time ← readTime? cs
  pure (date.toDays * dayNanos + time)

/-- Reads a date and a time with blanks, or nothing, between them. -/
def readSpaced? (cs : List Char) : Option Int := do
  let (date, cs) ← takeDate cs
  let time ← readTime? cs
  pure (date.toDays * dayNanos + time)

/-- **Reads an instant:** with an offset, without one, or as the first moment of a date. -/
def readInstant? (cs : List Char) : Option Int :=
  (((readZoned? cs).or (readJoined? cs)).or (readSpaced? cs)).or
    ((Date.read? cs).map fun date => date.toDays * dayNanos)

/-! ### Writing -/

/-- A number with zeros before it up to a width. -/
def padded (width n : Nat) : String :=
  let digits := Nat.toDigits 10 n
  String.ofList (List.replicate (width - digits.length) '0' ++ digits)

/-- A year of four digits, with a sign if four digits are not enough or it is negative. -/
def yearText (year : Int) : String :=
  if 0 ≤ year ∧ year ≤ 9999 then padded 4 year.natAbs
  else (if year < 0 then "-" else "+") ++ padded 4 year.natAbs

/-- The text of a date. -/
def Date.text (d : Date) : String :=
  yearText d.year ++ "-" ++ padded 2 d.month ++ "-" ++ padded 2 d.day

/-- The fraction of a second that some microseconds are, in as few groups of three digits as are
exact. -/
def fractionText (micros : Nat) : String :=
  if micros = 0 then ""
  else if micros % 1000 = 0 then "." ++ padded 3 (micros / 1000)
  else "." ++ padded 6 micros

/-- The text of an instant that is given in microseconds, if its date is kept. -/
def instantText? (micros : Int) : Option String :=
  let day : Int := 86400000000
  let date := Date.ofDays (micros / day)
  let ofDay := (micros % day).toNat
  let seconds := ofDay / 1000000
  if yearInRange date.year then
    some (date.text ++ "T" ++ padded 2 (seconds / 3600) ++ ":" ++ padded 2 (seconds / 60 % 60) ++
      ":" ++ padded 2 (seconds % 60) ++ fractionText (ofDay % 1000000))
  else none

example : (Date.mk 2000 1 1).toDays = 0 ∧ Date.ofDays (-1) = ⟨1999, 12, 31⟩ := by decide

example : (Date.mk 2024 2 29).toDays = 8825 ∧ Date.ofDays 8825 = ⟨2024, 2, 29⟩ := by decide

end Rowset.Calendar
