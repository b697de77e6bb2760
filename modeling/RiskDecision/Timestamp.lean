import RiskDecision.Decimal.Reader

/-!
# Timestamps

A timestamp is written as year, month and day with hyphens, then hour, minute and second with
colons, as in `2025-03-26 12:00:00`. The format is lenient in three ways: blanks may precede every
number, date and time need no blank between them, and a number may have fewer digits. A year has at
most four digits unless a sign precedes it. The date has to exist, and a minute may have a leap
second.
-/

namespace RiskDecision

/-- A date of the Gregorian calendar and a time of day. -/
structure Timestamp where
  year : Int
  month : Nat
  day : Nat
  hour : Nat
  minute : Nat
  second : Nat
  deriving Repr, DecidableEq

namespace Timestamp

/-- The year has a 29th of February. -/
def isLeapYear (year : Int) : Bool :=
  year % 4 == 0 && (year % 100 != 0 || year % 400 == 0)

/-- The number of days of a month, zero for a month that does not exist. -/
def daysInMonth (year : Int) (month : Nat) : Nat :=
  if month = 2 then if isLeapYear year then 29 else 28
  else if month ∈ [4, 6, 9, 11] then 30
  else if 1 ≤ month ∧ month ≤ 12 then 31
  else 0

/-- The date exists and lies within the supported years, and the time of day exists. -/
def exists? (t : Timestamp) : Bool :=
  -262143 ≤ t.year && t.year ≤ 262142 && 1 ≤ t.day && t.day ≤ daysInMonth t.year t.month
    && t.hour ≤ 23 && t.minute ≤ 59 && t.second ≤ 60

/-- A number of at most `width` digits, blanks before it skipped, and the rest of the text. -/
def takeNumber? (width : Nat) (cs : List Char) : Option (Nat × List Char) :=
  let cs := cs.dropWhile Text.isBlank
  let digits := (cs.take width).takeWhile Char.isDigit
  if digits.isEmpty then none else some (Decimal.digitsValue digits, cs.drop digits.length)

/-- A year: up to four digits, or a sign and any number of digits. -/
def takeYear? (cs : List Char) : Option (Int × List Char) := do
  match cs.dropWhile Text.isBlank with
  | '-' :: rest =>
    if !(rest.head?.any Char.isDigit) then none
    let (year, rest) ← takeNumber? rest.length rest
    return (-year, rest)
  | '+' :: rest =>
    if !(rest.head?.any Char.isDigit) then none
    let (year, rest) ← takeNumber? rest.length rest
    return (year, rest)
  | cs =>
    let (year, rest) ← takeNumber? 4 cs
    return (year, rest)

/-- The rest of a text that begins with the given character. -/
def skip? (c : Char) : List Char → Option (List Char)
  | [] => none
  | d :: rest => if d = c then some rest else none

/-- The timestamp that a text denotes. -/
def read? (s : String) : Option Timestamp := do
  let (year, cs) ← takeYear? s.toList
  let (month, cs) ← takeNumber? 2 (← skip? '-' cs)
  let (day, cs) ← takeNumber? 2 (← skip? '-' cs)
  let (hour, cs) ← takeNumber? 2 cs
  let (minute, cs) ← takeNumber? 2 (← skip? ':' cs)
  let (second, cs) ← takeNumber? 2 (← skip? ':' cs)
  let t : Timestamp := ⟨year, month, day, hour, minute, second⟩
  if cs.isEmpty && t.exists? then some t else none

/-- Before six o'clock or from eleven at night on. -/
def isNight (t : Timestamp) : Bool := t.hour < 6 || 22 < t.hour

end Timestamp

end RiskDecision
