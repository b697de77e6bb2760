import RiskDecision.Timestamp
import RiskDecision.Toml.Scan

/-!
# Dates and times of TOML

A moment is a date, a time of day, or both with an optional offset from the world's time. It is read
as a text of one spelling: `T` between date and time, at most nine digits behind the point of the
seconds and no zeros at their end but for the first digit, and `Z` or hours and minutes for the
offset. Seconds, and their fraction, stay away if they are not written.
-/

namespace RiskDecision.Toml

/-- Exactly `width` digits. -/
def scanDigits (width : Nat) : Scan (List Char) := fun cs =>
  let digits := cs.take width
  if digits.length = width && digits.all Char.isDigit then some (digits, cs.drop width) else none

/-- A date that exists. -/
def scanDate : Scan (List Char) := fun cs => do
  let (year, cs) ← scanDigits 4 cs
  let (month, cs) ← scanDigits 2 (← Timestamp.skip? '-' cs)
  let (day, cs) ← scanDigits 2 (← Timestamp.skip? '-' cs)
  let value := Decimal.digitsValue
  if 1 ≤ value day && value day ≤ Timestamp.daysInMonth (value year) (value month) then
    return (year ++ '-' :: month ++ '-' :: day, cs)
  else none

/-- Hours and minutes. -/
def scanClock : Scan (List Char) := fun cs => do
  let (hour, cs) ← scanDigits 2 cs
  let (minute, cs) ← scanDigits 2 (← Timestamp.skip? ':' cs)
  if Decimal.digitsValue hour ≤ 23 && Decimal.digitsValue minute ≤ 59 then
    return (hour ++ ':' :: minute, cs)
  else none

/-- The digits behind the point of the seconds as they are kept: at least one, without zeros at
the end otherwise. -/
def fractionDigits (digits : List Char) : List Char :=
  match (digits.take 9).reverse.dropWhile (· == '0') with
  | [] => ['0']
  | kept => kept.reverse

/-- A fraction of a second, if there is a point. -/
def scanFraction : Scan (List Char) := fun cs =>
  match cs with
  | '.' :: cs =>
    let digits := cs.takeWhile Char.isDigit
    if digits.isEmpty then none
    else some ('.' :: fractionDigits digits, cs.drop digits.length)
  | cs => some ([], cs)

/-- Seconds, if there are any; a minute may have a leap second. -/
def scanSeconds : Scan (List Char) := fun cs =>
  match cs with
  | ':' :: cs => do
    let (second, cs) ← scanDigits 2 cs
    let (fraction, cs) ← scanFraction cs
    if Decimal.digitsValue second ≤ 60 then return (':' :: second ++ fraction, cs) else none
  | cs => some ([], cs)

/-- A time of day. -/
def scanTime : Scan (List Char) := fun cs => do
  let (clock, cs) ← scanClock cs
  let (seconds, cs) ← scanSeconds cs
  return (clock ++ seconds, cs)

/-- An offset from the world's time, if there is one. -/
def scanOffset : Scan (List Char) := fun cs =>
  match cs with
  | 'Z' :: cs | 'z' :: cs => some (['Z'], cs)
  | '+' :: cs => do
    let (clock, cs) ← scanClock cs
    return ('+' :: clock, cs)
  | '-' :: cs => do
    let (clock, cs) ← scanClock cs
    return ((if clock.all fun c => c == '0' || c == ':' then '+' else '-') :: clock, cs)
  | cs => some ([], cs)

/-- A date, with a time of day behind it if there is one. -/
def scanDated : Scan (List Char) := fun cs => do
  let (date, cs) ← scanDate cs
  let clock? := match cs with
    | 'T' :: rest | 't' :: rest => some rest
    | ' ' :: rest => if rest.head?.any Char.isDigit then some rest else none
    | _ => none
  match clock? with
  | none => return (date, cs)
  | some cs =>
    let (time, cs) ← scanTime cs
    let (offset, cs) ← scanOffset cs
    return (date ++ 'T' :: time ++ offset, cs)

/-- A moment in its one spelling. -/
def scanMoment : Scan String := fun cs =>
  ((scanDated cs).or (scanTime cs)).map fun (moment, rest) => (String.ofList moment, rest)

end RiskDecision.Toml
