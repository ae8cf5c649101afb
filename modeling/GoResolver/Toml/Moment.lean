import GoResolver.Text.Number

/-!
# Dates and times

A date is `YYYY-MM-DD`, a time is `HH:MM:SS` with an optional fraction.  A date may be followed by
`T` or a blank and a time, and that time by `Z` or a difference to universal time.  Each number must
be in its range, and the day in its month.

`skipMoment?` only says where a date or a time ends.  A text that starts like one must be one.
-/

namespace GoResolver.Toml

/-- Reads a number of exactly the given number of digits. -/
def fixedDigits? (width : Nat) (s : List Char) : Option (Nat × List Char) :=
  let ds := s.take width
  if ds.length = width ∧ ds.all Text.isDigit then some (Text.value 10 ds, s.drop width) else none

/-- The text after a given character. -/
def skip? (c : Char) : List Char → Option (List Char)
  | a :: s => if a = c then some s else none
  | [] => none

/-- The number of days of a month. -/
def daysIn (year month : Nat) : Nat :=
  if month = 2 then if year % 4 = 0 ∧ (year % 100 ≠ 0 ∨ year % 400 = 0) then 29 else 28
  else if [4, 6, 9, 11].contains month then 30
  else 31

/-- The text after a date. -/
def skipDate? (s : List Char) : Option (List Char) := do
  let (year, s) ← fixedDigits? 4 s
  let (month, s) ← fixedDigits? 2 (← skip? '-' s)
  let (day, s) ← fixedDigits? 2 (← skip? '-' s)
  if 1 ≤ month ∧ month ≤ 12 ∧ 1 ≤ day ∧ day ≤ daysIn year month then some s else none

/-- The text after an hour and a minute. -/
def skipMinutes? (s : List Char) : Option (List Char) := do
  let (hour, s) ← fixedDigits? 2 s
  let (minute, s) ← fixedDigits? 2 (← skip? ':' s)
  if hour ≤ 23 ∧ minute ≤ 59 then some s else none

/-- The text after a fraction of a second, if there is one. -/
def skipFraction : List Char → List Char
  | '.' :: c :: s => if Text.isDigit c then s.dropWhile Text.isDigit else '.' :: c :: s
  | s => s

/-- The text after a time. -/
def skipTime? (s : List Char) : Option (List Char) := do
  let (second, s) ← fixedDigits? 2 (← skip? ':' (← skipMinutes? s))
  if second ≤ 60 then some (skipFraction s) else none

/-- The text after a difference to universal time, if there is one. -/
def skipOffset? : List Char → Option (List Char)
  | 'Z' :: s | 'z' :: s => some s
  | '+' :: s | '-' :: s => skipMinutes? s
  | s => some s

/-- Whether a text starts like a date. -/
def startsDate (s : List Char) : Bool :=
  (s.take 4).all Text.isDigit && s[4]? == some '-'

/-- Whether a text starts like a time. -/
def startsTime (s : List Char) : Bool :=
  (s.take 2).all Text.isDigit && s[2]? == some ':'

/-- The text after a date and the time that may follow it. -/
def skipDateTime? (s : List Char) : Option (List Char) := do
  match ← skipDate? s with
  | c :: r =>
    if (c = 'T' ∨ c = 't' ∨ c = ' ') ∧ startsTime r then skipOffset? (← skipTime? r)
    else some (c :: r)
  | [] => some []

/-- The text after a date, a time or both. -/
def skipMoment? (s : List Char) : Option (List Char) :=
  if startsDate s then skipDateTime? s else skipTime? s

end GoResolver.Toml
