/-!
Contract: dates of the proleptic Gregorian calendar, years 1 to 9999.

Owns: leap years, lengths of months, the count of days from the first day of year 1,
and the date of a given count.

Does not own: times of day and offsets from UTC.
-/

set_option autoImplicit false

namespace DocumentStore.Calendar

/-- Every fourth year is a leap year, except the centuries that 400 does not divide. -/
def isLeap (year : Nat) : Bool :=
  year % 4 == 0 && (year % 100 != 0 || year % 400 == 0)

/-- The lengths of the twelve months of a year. -/
def monthLengths (year : Nat) : List Nat :=
  [31, if isLeap year then 29 else 28, 31, 30, 31, 30, 31, 31, 30, 31, 30, 31]

/-- The number of days in a month; none outside months 1 to 12. -/
def daysInMonth (year month : Nat) : Nat :=
  if month = 0 then 0 else (monthLengths year).getD (month - 1) 0

/-- A day that exists. -/
structure Date where
  year : Nat
  month : Nat
  day : Nat
  valid : 1 ≤ year ∧ year ≤ 9999 ∧ 1 ≤ month ∧ month ≤ 12 ∧ 1 ≤ day
    ∧ day ≤ daysInMonth year month
  deriving DecidableEq

namespace Date

/-- The date of the given fields, if there is one. -/
def make? (year month day : Nat) : Option Date :=
  if valid : 1 ≤ year ∧ year ≤ 9999 ∧ 1 ≤ month ∧ month ≤ 12 ∧ 1 ≤ day
      ∧ day ≤ daysInMonth year month then
    some ⟨year, month, day, valid⟩
  else
    none

/-- The number of days in the years before a given one. -/
def daysBeforeYear (year : Nat) : Nat :=
  let years := year - 1
  years * 365 + years / 4 - years / 100 + years / 400

/-- The number of days in the months of a year before a given one. -/
def daysBeforeMonth (year month : Nat) : Nat :=
  ((monthLengths year).take (month - 1)).foldl (· + ·) 0

/-- The place of a date in the calendar, the first day of year 1 being day 1. -/
def ordinal (date : Date) : Nat :=
  daysBeforeYear date.year + daysBeforeMonth date.year date.month + date.day

/-- The month and the day of the month that lie a number of days after the first day of
a month, given the lengths of that month and of those after it. -/
def locate : List Nat → Nat → Nat → Nat × Nat
  | [], month, days => (month, days + 1)
  | length :: later, month, days =>
      if days < length then (month, days + 1) else locate later (month + 1) (days - length)

/-- The date at a place in the calendar, if it lies in the years 1 to 9999. Whole cycles of
400, 100 and 4 years and single years are taken off in turn; the last day of a cycle of
400 or 4 years belongs to the cycle it ends. -/
def ofOrdinal? (place : Int) : Option Date :=
  if place < 1 then none
  else
    let days := place.toNat - 1
    let cycles := days / 146097
    let inCycle := days % 146097
    let centuries := min (inCycle / 36524) 3
    let inCentury := inCycle - centuries * 36524
    let quadrennia := inCentury / 1461
    let inQuadrennium := inCentury % 1461
    let years := min (inQuadrennium / 365) 3
    let inYear := inQuadrennium - years * 365
    let year := 400 * cycles + 100 * centuries + 4 * quadrennia + years + 1
    let (month, day) := locate (monthLengths year) 1 inYear
    make? year month day

end Date

end DocumentStore.Calendar
