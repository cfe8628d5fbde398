import DocumentStore.Calendar.Timestamp

/-!
Contract: moments in descriptions of values.

Owns: the literal of a moment, which names all its parts, and its plain form.

Does not own: timestamps, which are the form in which moments are stored.
-/

set_option autoImplicit false

namespace DocumentStore.Calendar

/-- Numbers with commas between them. -/
def commaSeparated (numbers : List Nat) : String :=
  ", ".intercalate (numbers.map fun number => String.ofList (Nat.toDigits 10 number))

namespace Offset

/-- A span of microseconds as whole days, seconds and the microseconds left over, without those
that are zero. -/
def spanParts (microseconds : Int) : List String :=
  let days := microseconds / dayLength
  let seconds := microseconds % dayLength / 1000000
  let rest := microseconds % 1000000
  (if days = 0 then [] else ["days=" ++ String.ofList (integerText days)])
    ++ (if seconds = 0 then [] else ["seconds=" ++ String.ofList (integerText seconds)])
    ++ (if rest = 0 then [] else ["microseconds=" ++ String.ofList (integerText rest)])

/-- The literal of an offset. -/
def literal (offset : Offset) : String :=
  if offset.microseconds = 0 then "datetime.timezone.utc"
  else
    "datetime.timezone(datetime.timedelta(" ++ ", ".intercalate (spanParts offset.microseconds)
      ++ "))"

/-- An offset in hours and minutes, and in seconds and microseconds where it has some. -/
def plain (offset : Offset) : List Char :=
  let size := TimeOfDay.ofMicroseconds offset.microseconds.natAbs
  let sign := if offset.microseconds < 0 then '-' else '+'
  let finest := if size.microsecond = 0 then [] else '.' :: Timestamp.padded 6 size.microsecond
  let fine :=
    if size.second = 0 ∧ size.microsecond = 0 then []
    else ':' :: (Timestamp.padded 2 size.second ++ finest)
  sign :: (Timestamp.padded 2 size.hour ++ ':' :: (Timestamp.padded 2 size.minute ++ fine))

end Offset

namespace TimeOfDay

/-- The seconds and microseconds of a literal; those at the end that are zero are left out. -/
def fineFields (time : TimeOfDay) : List Nat :=
  if time.microsecond ≠ 0 then [time.second, time.microsecond]
  else if time.second ≠ 0 then [time.second]
  else []

end TimeOfDay

namespace Moment

/-- The literal of a moment. -/
def literal (moment : Moment) : String :=
  let fields := [moment.date.year, moment.date.month, moment.date.day, moment.time.hour,
    moment.time.minute]
  let zone := (moment.offset.map fun offset => ", tzinfo=" ++ offset.literal).getD ""
  "datetime.datetime(" ++ commaSeparated (fields ++ moment.time.fineFields) ++ zone ++ ")"

/-- The plain form of a moment: date, time of day with the microseconds where they are not zero,
and the offset if it has one. -/
def plain (moment : Moment) : String :=
  let padded := Timestamp.padded
  let time := moment.time
  let fine := if time.microsecond = 0 then [] else '.' :: padded 6 time.microsecond
  String.ofList (padded 4 moment.date.year ++ '-' :: padded 2 moment.date.month
    ++ '-' :: padded 2 moment.date.day ++ ' ' :: padded 2 time.hour ++ ':' :: padded 2 time.minute
    ++ ':' :: padded 2 time.second ++ fine ++ (moment.offset.map Offset.plain).getD [])

end Moment

end DocumentStore.Calendar
