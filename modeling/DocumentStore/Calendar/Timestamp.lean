import DocumentStore.Calendar.Moment
import DocumentStore.Number.Numeral

/-!
Contract: the text form of moments.

Owns: the writer (UTC, milliseconds, a trailing `Z`) and the reader (a full date and
time of day, up to six decimals of a second, `Z` or an offset in hours and minutes).

Does not own: where such text is stored.

The writer does not pad years below 1000, and the reader wants four digits, so the
two agree on the years from 1000 on. The minutes of an offset may exceed 59; what
counts is that the offset stays below a day.
-/

set_option autoImplicit false

namespace DocumentStore.Calendar.Timestamp

/-- A number padded with zeros to a width. -/
def padded (width number : Nat) : List Char :=
  let digits := Nat.toDigits 10 number
  List.replicate (width - digits.length) '0' ++ digits

/-- The text of a moment's own fields, to the millisecond. -/
def fieldsText (moment : Moment) : List Char :=
  Nat.toDigits 10 moment.date.year ++ '-' :: padded 2 moment.date.month
    ++ '-' :: padded 2 moment.date.day ++ 'T' :: padded 2 moment.time.hour
    ++ ':' :: padded 2 moment.time.minute ++ ':' :: padded 2 moment.time.second
    ++ '.' :: padded 3 (moment.time.microsecond / 1000) ++ ['Z']

/-- The text of a moment in UTC; a moment without an offset is taken to be in UTC. There
is none for a moment that leaves the years 1 to 9999 on the way to UTC. -/
def write? (moment : Moment) : Option String :=
  match moment.offset with
  | none => some (String.ofList (fieldsText moment))
  | some _ => moment.utc?.map fun inUtc => String.ofList (fieldsText inUtc)

/-- A fixed number of decimal digits and the rest of the text. -/
def takeDigits (count : Nat) (text : List Char) : Option (Nat × List Char) :=
  let digits := text.take count
  if digits.length = count ∧ digits.all Char.isDigit then
    some (digitsValue digits, text.drop count)
  else
    none

/-- The rest of a text that starts with a given character. -/
def expect (character : Char) (text : List Char) : Option (List Char) :=
  match text with
  | [] => none
  | first :: rest => if first = character then some rest else none

/-- The decimals of a second in microseconds, if there are any, at most six. -/
def takeFraction (text : List Char) : Option (Nat × List Char) :=
  match text with
  | '.' :: rest =>
      let digits := rest.takeWhile Char.isDigit
      if 1 ≤ digits.length ∧ digits.length ≤ 6 then
        some (digitsValue digits * Nat.pow 10 (6 - digits.length), rest.dropWhile Char.isDigit)
      else
        none
  | _ => some (0, text)

/-- The offset that ends a timestamp, in seconds; nothing may follow it. -/
def readOffset (text : List Char) : Option Int := do
  match text with
  | ['Z'] => some 0
  | sign :: rest =>
      if sign = '+' ∨ sign = '-' then
        let (hours, rest) ← takeDigits 2 rest
        let rest ← expect ':' rest
        let (minutes, rest) ← takeDigits 2 rest
        if rest.isEmpty then
          let seconds : Int := ((hours * 60 + minutes) * 60 : Nat)
          some (if sign = '-' then -seconds else seconds)
        else
          none
      else
        none
  | [] => none

/-- The moment a text names, with the offset it names it at. -/
def readMoment (text : List Char) : Option Moment := do
  let (year, rest) ← takeDigits 4 text
  let rest ← expect '-' rest
  let (month, rest) ← takeDigits 2 rest
  let rest ← expect '-' rest
  let (day, rest) ← takeDigits 2 rest
  let rest ← expect 'T' rest
  let (hour, rest) ← takeDigits 2 rest
  let rest ← expect ':' rest
  let (minute, rest) ← takeDigits 2 rest
  let rest ← expect ':' rest
  let (second, rest) ← takeDigits 2 rest
  let (microsecond, rest) ← takeFraction rest
  let seconds ← readOffset rest
  let date ← Date.make? year month day
  let time ← TimeOfDay.make? hour minute second microsecond
  let offset ← Offset.make? seconds
  some ⟨date, time, some offset⟩

/-- What a text turns out to be. -/
inductive Reading where
  | noTimestamp
  | outOfRange
  | moment (inUtc : Moment)
  deriving DecidableEq

/-- A text as a moment in UTC. -/
def read (text : String) : Reading :=
  match readMoment text.toList with
  | none => .noTimestamp
  | some moment =>
      match moment.utc? with
      | none => .outOfRange
      | some inUtc => .moment inUtc

end DocumentStore.Calendar.Timestamp
