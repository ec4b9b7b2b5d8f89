import MessageSelector.Text.Scan

/-!
# Timestamps

A timestamp is a number of milliseconds since the beginning of 1970, Coordinated Universal Time. It
is read from such a number or from a date and time of RFC 3339, whose fraction of a second is cut
down to milliseconds.
-/

namespace MessageSelector.Timestamp

open Text (Scan)
open Text.Scan (number oneOf expect)

/-- The milliseconds that have passed at an instant given in seconds and nanoseconds. -/
def ofInstant (seconds : Int) (nanoseconds : Nat) : Int :=
  (seconds * 1000000000 + nanoseconds).fdiv 1000000

/-! ## The calendar -/

/-- Whether a year has a twenty-ninth of February. -/
def isLeapYear (year : Nat) : Bool :=
  year % 4 = 0 && (year % 100 ≠ 0 || year % 400 = 0)

/-- The lengths of the months of a year. -/
def monthLengths (year : Nat) : List Nat :=
  [31, if isLeapYear year then 29 else 28, 31, 30, 31, 30, 31, 31, 30, 31, 30, 31]

/-- The days from the beginning of the year zero to the beginning of a year. -/
def daysBeforeYear (year : Nat) : Nat :=
  365 * year + (year + 3) / 4 - (year + 99) / 100 + (year + 399) / 400

/-- The days from the beginning of a year to the beginning of a month. -/
def daysBeforeMonth (year month : Nat) : Nat :=
  ((monthLengths year).take (month - 1)).foldl (· + ·) 0

/-- A date of the calendar, if there is such a date, as days since the beginning of 1970. -/
def dayNumber? (year month day : Nat) : Option Int := do
  guard (1 ≤ month && 1 ≤ day)
  let length ← (monthLengths year)[month - 1]?
  guard (day ≤ length)
  let before := daysBeforeYear year + daysBeforeMonth year month
  return (before + (day - 1) : Int) - daysBeforeYear 1970

/-! ## Reading -/

/-- A fraction of a second after its point, if there is one, in nanoseconds. Digits beyond the
ninth count for nothing. -/
def fraction : Scan Nat
  | '.' :: rest => do
    let (digits, rest) := rest.span Char.isDigit
    guard (!digits.isEmpty)
    let nine := (digits ++ List.replicate 9 '0').take 9
    return (Integer.ofDigits 10 nine, rest)
  | text => some (0, text)

/-- The distance of a local time from Coordinated Universal Time, in seconds. -/
def offset : Scan Int := do
  let sign ← oneOf ['Z', 'z', '+', '-', '−']
  if sign = 'Z' || sign = 'z' then return 0
  let hours ← number 2 23
  expect ':'
  let minutes ← number 2 59
  let seconds : Int := 3600 * hours + 60 * minutes
  return if sign = '+' then seconds else -seconds

/-- A date and time with an offset, in milliseconds. A minute may have a sixty-first second, which
counts like the first of the next minute. -/
def dateTime : Scan Int := do
  let year ← number 4 9999
  expect '-'
  let month ← number 2 12
  expect '-'
  let day ← number 2 31
  let _ ← oneOf ['T', 't', ' ']
  let hour ← number 2 23
  expect ':'
  let minute ← number 2 59
  expect ':'
  let second ← number 2 60
  let nanoseconds ← fraction
  let offset ← offset
  let days ← dayNumber? year month day
  return ofInstant (86400 * days + 3600 * hour + 60 * minute + second - offset) nanoseconds

/-- A timestamp written as a number of milliseconds or as a date and time. -/
def read? (text : String) : Option Int64 :=
  match Integer.readWord? text with
  | some millis => some millis
  | none =>
    match dateTime text.toList with
    | some (millis, []) => Integer.narrow millis
    | _ => none

end MessageSelector.Timestamp
