import DocumentStore.Calendar.Date

/-!
Contract: moments, with or without an offset from UTC.

Owns: times of day, offsets, the moment's place on the time line, and the same
moment expressed in UTC.

Does not own: the text of a moment.

A moment without an offset is read as UTC where a place on the time line is needed.
-/

set_option autoImplicit false

namespace DocumentStore.Calendar

/-- A time of day to the microsecond. -/
structure TimeOfDay where
  hour : Nat
  minute : Nat
  second : Nat
  microsecond : Nat
  valid : hour < 24 ∧ minute < 60 ∧ second < 60 ∧ microsecond < 1000000
  deriving DecidableEq

namespace TimeOfDay

/-- The time of the given fields, if there is one. -/
def make? (hour minute second microsecond : Nat) : Option TimeOfDay :=
  if valid : hour < 24 ∧ minute < 60 ∧ second < 60 ∧ microsecond < 1000000 then
    some ⟨hour, minute, second, microsecond, valid⟩
  else
    none

/-- Microseconds since midnight. -/
def microseconds (time : TimeOfDay) : Nat :=
  (time.hour * 3600 + time.minute * 60 + time.second) * 1000000 + time.microsecond

/-- The time a number of microseconds after midnight, on the clock of one day. -/
def ofMicroseconds (microseconds : Nat) : TimeOfDay :=
  ⟨microseconds / 3600000000 % 24, microseconds / 60000000 % 60, microseconds / 1000000 % 60,
    microseconds % 1000000, Nat.mod_lt _ (by decide), Nat.mod_lt _ (by decide),
    Nat.mod_lt _ (by decide), Nat.mod_lt _ (by decide)⟩

end TimeOfDay

/-- The microseconds of a day. -/
def dayLength : Nat :=
  86400000000

/-- Microseconds ahead of UTC, less than a day in either direction. -/
structure Offset where
  microseconds : Int
  valid : -(dayLength : Int) < microseconds ∧ microseconds < (dayLength : Int)
  deriving DecidableEq

namespace Offset

/-- The offset of a number of seconds, if it is less than a day. -/
def make? (seconds : Int) : Option Offset :=
  if valid : -(dayLength : Int) < seconds * 1000000 ∧ seconds * 1000000 < (dayLength : Int) then
    some ⟨seconds * 1000000, valid⟩
  else
    none

/-- The whole seconds of an offset. -/
def seconds (offset : Offset) : Int :=
  offset.microseconds / 1000000

/-- No offset from UTC. -/
def zero : Offset :=
  ⟨0, by decide⟩

end Offset

/-- A date and a time of day, at an offset from UTC if one is known. -/
structure Moment where
  date : Date
  time : TimeOfDay
  offset : Option Offset
  deriving DecidableEq

namespace Moment

/-- The place of a moment on the time line: microseconds from the start of the calendar's day 0 in
UTC. -/
def instant (moment : Moment) : Int :=
  (moment.date.ordinal * dayLength + moment.time.microseconds : Nat)
    - (moment.offset.map Offset.microseconds).getD 0

/-- The same moment in UTC, unless it leaves the years 1 to 9999. -/
def utc? (moment : Moment) : Option Moment :=
  (Date.ofOrdinal? (moment.instant / dayLength)).map fun date =>
    ⟨date, .ofMicroseconds (moment.instant % dayLength).toNat, some .zero⟩

/-- Two moments with offsets are equal when they are the same instant, two without when
their fields are; one with an offset never equals one without. -/
def equal (left right : Moment) : Bool :=
  match left.offset, right.offset with
  | some _, some _ => left.instant == right.instant
  | none, none => left == right
  | _, _ => false

end Moment

end DocumentStore.Calendar
