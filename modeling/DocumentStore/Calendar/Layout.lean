import DocumentStore.Calendar.Timestamp

/-!
Contract: the form of timestamps, and the two tests that texts of this form pass.

Owns: the parts of a timestamp and the moment they name, the pattern with the digits of all
scripts, and the reading of dates and times in the extended form.

Does not own: the reader that makes both tests at once.

The pattern lets more pass than it seems to: digits of any script, and a line feed at the end. The
extended form is wider where the pattern is strict (fields that are left out, any separator,
decimals after a comma), but takes no digits other than `0` to `9` and nothing after an offset.
-/

set_option autoImplicit false

namespace DocumentStore.Calendar.Timestamp

/-! ### Parts -/

/-- How a timestamp names its offset: as that of UTC, or in hours and minutes on either side of it. -/
inductive Zone where
  | utc
  | offset (behind : Bool) (hours minutes : List Char)

/-- The parts of a timestamp, as they are written. -/
structure Layout where
  year : List Char
  month : List Char
  day : List Char
  hour : List Char
  minute : List Char
  second : List Char
  fraction : Option (List Char)
  zone : Zone

/-- So many digits of some class. -/
def IsRun (digit : Char → Bool) (count : Nat) (digits : List Char) : Prop :=
  digits.length = count ∧ ∀ character ∈ digits, digit character = true

namespace Zone

/-- A zone as it is written. -/
def text : Zone → List Char
  | utc => ['Z']
  | offset behind hours minutes => (if behind then '-' else '+') :: (hours ++ ':' :: minutes)

/-- Hours and minutes have two digits each. -/
def MadeOf (digit : Char → Bool) : Zone → Prop
  | utc => True
  | offset _ hours minutes => IsRun digit 2 hours ∧ IsRun digit 2 minutes

/-- The seconds by which a zone is ahead of UTC. -/
def seconds : Zone → Int
  | utc => 0
  | offset behind hours minutes =>
      let size : Int := ((digitsValue hours * 60 + digitsValue minutes) * 60 : Nat)
      if behind then -size else size

/-- A zone in hours and minutes. -/
def spelledOut : Zone → Zone
  | utc => offset false ['0', '0'] ['0', '0']
  | zone => zone

end Zone

namespace Layout

/-- The decimals of a second as they are written, with their point. -/
def fractionText (layout : Layout) : List Char :=
  match layout.fraction with
  | none => []
  | some digits => '.' :: digits

/-- The time of day as it is written. -/
def clockText (layout : Layout) : List Char :=
  layout.hour ++ ':' :: (layout.minute ++ ':' :: (layout.second ++ layout.fractionText))

/-- A timestamp as it is written. -/
def text (layout : Layout) : List Char :=
  layout.year ++ '-' :: (layout.month ++ '-' :: (layout.day ++ 'T' ::
    (layout.clockText ++ layout.zone.text)))

/-- Four digits of the year, two of each other part, and up to six decimals. -/
structure MadeOf (digit : Char → Bool) (layout : Layout) : Prop where
  year : IsRun digit 4 layout.year
  month : IsRun digit 2 layout.month
  day : IsRun digit 2 layout.day
  hour : IsRun digit 2 layout.hour
  minute : IsRun digit 2 layout.minute
  second : IsRun digit 2 layout.second
  fraction : ∀ digits ∈ layout.fraction,
    ∃ count, 1 ≤ count ∧ count ≤ 6 ∧ IsRun digit count digits
  zone : layout.zone.MadeOf digit

/-- The decimals of a second in microseconds. -/
def microsecond (layout : Layout) : Nat :=
  match layout.fraction with
  | none => 0
  | some digits => digitsValue digits * Nat.pow 10 (6 - digits.length)

/-- The parts are those of a moment: the date exists, and so do the time of day and the offset. -/
structure Names (layout : Layout) (moment : Moment) : Prop where
  year : moment.date.year = digitsValue layout.year
  month : moment.date.month = digitsValue layout.month
  day : moment.date.day = digitsValue layout.day
  hour : moment.time.hour = digitsValue layout.hour
  minute : moment.time.minute = digitsValue layout.minute
  second : moment.time.second = digitsValue layout.second
  microsecond : moment.time.microsecond = layout.microsecond
  offset : ∃ offset : Offset, moment.offset = some offset
    ∧ offset.microseconds = layout.zone.seconds * 1000000

end Layout

/-- A text is a timestamp for a moment, in the digits `0` to `9`. -/
def Spells (text : List Char) (moment : Moment) : Prop :=
  ∃ layout : Layout, layout.MadeOf Char.isDigit ∧ text = layout.text ∧ layout.Names moment

/-! ### The pattern -/

/-- The zeros of all scripts with decimal digits in Unicode 14.0. The other digits of a script
follow its zero. -/
def scriptZeros : List Nat :=
  [0x30, 0x660, 0x6f0, 0x7c0, 0x966, 0x9e6, 0xa66, 0xae6, 0xb66, 0xbe6, 0xc66, 0xce6, 0xd66, 0xde6,
   0xe50, 0xed0, 0xf20, 0x1040, 0x1090, 0x17e0, 0x1810, 0x1946, 0x19d0, 0x1a80, 0x1a90, 0x1b50,
   0x1bb0, 0x1c40, 0x1c50, 0xa620, 0xa8d0, 0xa900, 0xa9d0, 0xa9f0, 0xaa50, 0xabf0, 0xff10, 0x104a0,
   0x10d30, 0x11066, 0x110f0, 0x11136, 0x111d0, 0x112f0, 0x11450, 0x114d0, 0x11650, 0x116c0,
   0x11730, 0x118e0, 0x11950, 0x11c50, 0x11d50, 0x11da0, 0x16a60, 0x16ac0, 0x16b50, 0x1d7ce,
   0x1d7d8, 0x1d7e2, 0x1d7ec, 0x1d7f6, 0x1e140, 0x1e2f0, 0x1e950, 0x1fbf0]

/-- A decimal digit of any script. -/
def isDecimal (character : Char) : Bool :=
  scriptZeros.any fun first => decide (first ≤ character.toNat ∧ character.toNat < first + 10)

/-- A text has the form of a timestamp, in the digits of any scripts. A line feed may end it. -/
def MatchesPattern (text : List Char) : Prop :=
  ∃ layout : Layout, layout.MadeOf isDecimal ∧ (text = layout.text ∨ text = layout.text ++ ['\n'])

/-! ### The extended form -/

/-- The text with `+00:00` for each `Z`. -/
def spellOutZone (text : List Char) : List Char :=
  text.flatMap fun character =>
    if character = 'Z' then ['+', '0', '0', ':', '0', '0'] else [character]

/-- The decimals that end a time of day, in microseconds. There may be any number of them, of
which the first six count. -/
def readDecimals : List Char → Option Nat
  | [] => some 0
  | mark :: digits =>
      if (mark = '.' ∨ mark = ',') ∧ digits ≠ [] ∧ digits.all Char.isDigit then
        some (digitsValue (digits.take 6) * Nat.pow 10 (6 - (digits.take 6).length))
      else
        none

/-- A time of day that is the whole of a text: hours, or hours and minutes, or all of hours, minutes
and seconds with their decimals. -/
def readClock (text : List Char) : Option (Nat × Nat × Nat × Nat) := do
  let (hour, rest) ← takeDigits 2 text
  match rest with
  | [] => some (hour, 0, 0, 0)
  | ':' :: rest => do
      let (minute, rest) ← takeDigits 2 rest
      match rest with
      | [] => some (hour, minute, 0, 0)
      | ':' :: rest => do
          let (second, rest) ← takeDigits 2 rest
          let microsecond ← readDecimals rest
          some (hour, minute, second, microsecond)
      | _ => none
  | _ => none

/-- The offset of a number of microseconds, if it is less than a day. -/
def offsetOf? (microseconds : Int) : Option Offset :=
  if valid : -(dayLength : Int) < microseconds ∧ microseconds < (dayLength : Int) then
    some ⟨microseconds, valid⟩
  else
    none

/-- The offset that ends a text of the extended form, if it has one. -/
def readZone : List Char → Option (Option Offset)
  | [] => some none
  | ['Z'] => some (some .zero)
  | sign :: rest => do
      let (hours, minutes, seconds, microseconds) ← readClock rest
      let size : Int := (((hours * 60 + minutes) * 60 + seconds) * 1000000 + microseconds : Nat)
      let offset ← offsetOf? (if sign = '-' then -size else size)
      some (some offset)

/-- A character that an offset starts with. -/
def startsZone (character : Char) : Bool :=
  character == '+' || character == '-' || character == 'Z'

/-- The moment that a text of the extended form names: a date, and after any one character a time of
day with or without an offset. -/
def readExtended (text : List Char) : Option Moment := do
  let (year, rest) ← takeDigits 4 text
  let rest ← expect '-' rest
  let (month, rest) ← takeDigits 2 rest
  let rest ← expect '-' rest
  let (day, rest) ← takeDigits 2 rest
  let date ← Date.make? year month day
  match rest with
  | [] => some ⟨date, ⟨0, 0, 0, 0, by decide⟩, none⟩
  | _ :: rest => do
      let (hour, minute, second, microsecond) ← readClock (rest.takeWhile (!startsZone ·))
      let offset ← readZone (rest.dropWhile (!startsZone ·))
      let time ← TimeOfDay.make? hour minute second microsecond
      some ⟨date, time, offset⟩

end DocumentStore.Calendar.Timestamp
