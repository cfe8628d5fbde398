import DocumentStore.Calendar.Timestamp
import DocumentStore.Proofs.Calendar.Days
import DocumentStore.Proofs.Number.Numeral

/-!
Contract: a timestamp names the moment it was written for, to the millisecond.

Owns: the moments in UTC by their place on the time line, the text of a moment as digits between
marks, and what the reader makes of what the writer wrote.

Does not own: other texts that the reader takes.

A moment in UTC is its instant and nothing more, so that it suffices to follow instants. The
reader wants four digits for the year, which the writer gives from the year 1000 on.
-/

set_option autoImplicit false

namespace DocumentStore.Calendar

/-! ### Instants -/

namespace TimeOfDay

theorem microseconds_lt (time : TimeOfDay) : time.microseconds < dayLength := by
  obtain ⟨hours, minutes, seconds, fine⟩ := time.valid
  rw [microseconds, dayLength]
  omega

theorem microseconds_ofMicroseconds {microseconds : Nat} (within : microseconds < dayLength) :
    (ofMicroseconds microseconds).microseconds = microseconds := by
  rw [dayLength] at within
  simp only [TimeOfDay.microseconds, ofMicroseconds]
  omega

theorem microseconds_inj {time other : TimeOfDay} (same : time.microseconds = other.microseconds) :
    time = other := by
  obtain ⟨hour, minute, second, fine, valid⟩ := time
  obtain ⟨otherHour, otherMinute, otherSecond, otherFine, otherValid⟩ := other
  simp only [microseconds] at same
  rw [TimeOfDay.mk.injEq]
  omega

end TimeOfDay

/-- A place on the time line that lies in the years 1 to 9999 of UTC. -/
def InCalendar (instant : Int) : Prop :=
  dayLength ≤ instant ∧ instant < (Date.lastOrdinal + 1) * dayLength

instance (instant : Int) : Decidable (InCalendar instant) :=
  inferInstanceAs (Decidable (_ ∧ _))

namespace Moment

/-- The moment is expressed in UTC and has this place on the time line. -/
structure Marks (moment : Moment) (instant : Int) : Prop where
  inUtc : moment.offset = some .zero
  instant_eq : moment.instant = instant

theorem instant_of_inUtc {moment : Moment} (inUtc : moment.offset = some .zero) :
    moment.instant = (moment.date.ordinal * dayLength + moment.time.microseconds : Nat) := by
  rw [instant, inUtc]
  exact Int.sub_zero _

/-- The moment in UTC on a date that is that of a place on the time line. -/
theorem marks_of_date {instant : Int} {date : Date} (day : (date.ordinal : Int) = instant / dayLength) :
    (⟨date, .ofMicroseconds (instant % dayLength).toNat, some .zero⟩ : Moment).Marks instant := by
  have positive : (0 : Int) < dayLength := by decide
  have nonnegative := Int.emod_nonneg instant (Int.ne_of_gt positive)
  have bound := Int.emod_lt_of_pos instant positive
  have within : (instant % dayLength).toNat < dayLength := by omega
  refine ⟨rfl, ?_⟩
  rw [instant_of_inUtc rfl, TimeOfDay.microseconds_ofMicroseconds within, Int.natCast_add,
    Int.natCast_mul, Int.toNat_of_nonneg nonnegative, day, Int.mul_comm]
  exact Int.mul_ediv_add_emod instant dayLength

namespace Marks

variable {moment other : Moment} {instant : Int}

/-- The day and the time of day of a moment in UTC, from its place on the time line. -/
theorem parts (marks : moment.Marks instant) : (moment.date.ordinal : Int) = instant / dayLength
    ∧ (instant % dayLength).toNat = moment.time.microseconds := by
  have within := moment.time.microseconds_lt
  rw [← marks.instant_eq, instant_of_inUtc marks.inUtc]
  constructor
  · rw [← Int.natCast_ediv, Nat.mul_comm, Nat.mul_add_div (by decide), Nat.div_eq_of_lt within,
      Nat.add_zero]
  · rw [← Int.natCast_emod, Int.toNat_natCast, Nat.mul_comm, Nat.mul_add_mod,
      Nat.mod_eq_of_lt within]

/-- There is one moment in UTC for each place on the time line. -/
theorem unique (marks : moment.Marks instant) (others : other.Marks instant) : moment = other := by
  obtain ⟨day, inDay⟩ := marks.parts
  obtain ⟨otherDay, otherInDay⟩ := others.parts
  obtain ⟨date, time, offset⟩ := moment
  obtain ⟨otherDate, otherTime, otherOffset⟩ := other
  have dates := Date.ofOrdinal?_eq_some_iff.2 day
  rw [Date.ofOrdinal?_eq_some_iff.2 otherDay] at dates
  rw [Moment.mk.injEq]
  exact ⟨(Option.some.inj dates).symm, TimeOfDay.microseconds_inj (inDay.symm.trans otherInDay),
    marks.inUtc.trans others.inUtc.symm⟩

theorem inCalendar (marks : moment.Marks instant) : InCalendar instant := by
  have within := moment.time.microseconds_lt
  obtain ⟨first, last⟩ := Date.exists_ordinal_iff.1 ⟨moment.date, rfl⟩
  rw [← marks.instant_eq, instant_of_inUtc marks.inUtc, InCalendar]
  rw [dayLength] at within ⊢
  omega

end Marks

/-- A moment in UTC is known by its place on the time line. -/
theorem utc?_eq_some_iff {moment inUtc : Moment} :
    moment.utc? = some inUtc ↔ inUtc.Marks moment.instant := by
  rw [utc?, Option.map_eq_some_iff]
  constructor
  · rintro ⟨date, found, rfl⟩
    exact marks_of_date (Date.ofOrdinal?_eq_some_iff.1 found)
  · intro marks
    obtain ⟨day, inDay⟩ := marks.parts
    obtain ⟨date, time, offset⟩ := inUtc
    refine ⟨date, Date.ofOrdinal?_eq_some_iff.2 day, ?_⟩
    rw [inDay, Moment.mk.injEq]
    refine ⟨rfl, ?_, marks.inUtc.symm⟩
    exact TimeOfDay.microseconds_inj (TimeOfDay.microseconds_ofMicroseconds time.microseconds_lt)

/-- The places that moments in UTC have are those of the calendar. -/
theorem exists_marks_iff {instant : Int} :
    (∃ moment : Moment, moment.Marks instant) ↔ InCalendar instant := by
  constructor
  · rintro ⟨moment, marks⟩
    exact marks.inCalendar
  · rintro ⟨first, last⟩
    have day : 1 ≤ instant / dayLength ∧ instant / dayLength ≤ Date.lastOrdinal := by
      rw [dayLength] at first last ⊢
      omega
    obtain ⟨date, placed⟩ := Date.exists_ordinal_iff.2 day
    exact ⟨_, marks_of_date placed⟩

/-- The moments without a form in UTC are those outside of the calendar. -/
theorem utc?_eq_none_iff {moment : Moment} : moment.utc? = none ↔ ¬InCalendar moment.instant := by
  rw [← exists_marks_iff, Option.eq_none_iff_forall_ne_some, not_exists]
  exact forall_congr' fun inUtc => not_congr utc?_eq_some_iff

/-- A moment without an offset already has the date and the time of its form in UTC. -/
theorem marks_of_offset_eq_none {moment : Moment} (unknown : moment.offset = none) :
    ({ moment with offset := some .zero } : Moment).Marks moment.instant := by
  refine ⟨rfl, ?_⟩
  rw [instant, instant, unknown]
  rfl

end Moment

/-! ### Milliseconds -/

/-- The time of day without what is finer than a millisecond. -/
def TimeOfDay.toMillisecond (time : TimeOfDay) : TimeOfDay where
  hour := time.hour
  minute := time.minute
  second := time.second
  microsecond := time.microsecond / 1000 * 1000
  valid := ⟨time.valid.1, time.valid.2.1, time.valid.2.2.1,
    Nat.lt_of_le_of_lt (Nat.div_mul_le_self _ _) time.valid.2.2.2⟩

namespace Moment

/-- The moment without what is finer than a millisecond. -/
def toMillisecond (moment : Moment) : Moment :=
  { moment with time := moment.time.toMillisecond }

theorem Marks.toMillisecond {moment : Moment} {instant : Int} (marks : moment.Marks instant) :
    moment.toMillisecond.Marks (instant / 1000 * 1000) := by
  have inUtc : moment.toMillisecond.offset = some .zero := marks.inUtc
  refine ⟨inUtc, ?_⟩
  rw [← marks.instant_eq, instant_of_inUtc marks.inUtc, instant_of_inUtc inUtc]
  simp only [Moment.toMillisecond, TimeOfDay.toMillisecond, TimeOfDay.microseconds, dayLength]
  omega

end Moment

namespace Timestamp

/-! ### Digits -/

section Digits

variable {width number : Nat}

/-- A number that is not too long for it fills its width. -/
theorem length_padded (positive : 0 < width) (short : number < 10 ^ width) :
    (padded width number).length = width := by
  have fits := (Nat.length_toDigits_le_iff (by decide) positive).2 short
  rw [padded, List.length_append, List.length_replicate, Nat.sub_add_cancel fits]

theorem isDigit_padded : ∀ character ∈ padded width number, character.isDigit = true := by
  intro character member
  rcases List.mem_append.1 member with zero | digit
  · rw [(List.mem_replicate.1 zero).2]
    rfl
  · exact isDigit_toDigits character digit

theorem digitsValue_padded : digitsValue (padded width number) = number := by
  rw [padded, digitsValue_zeros_append, digitsValue_toDigits]

end Digits

theorem takeDigits_append {digits rest : List Char}
    (all : ∀ character ∈ digits, character.isDigit = true) :
    takeDigits digits.length (digits ++ rest) = some (digitsValue digits, rest) := by
  have everyDigit : digits.all Char.isDigit = true := List.all_eq_true.2 all
  rw [takeDigits, List.take_left, List.drop_left, if_pos ⟨rfl, everyDigit⟩]

theorem takeDigits_padded {width number : Nat} (positive : 0 < width) (short : number < 10 ^ width)
    (rest : List Char) : takeDigits width (padded width number ++ rest) = some (number, rest) := by
  have taken := @takeDigits_append (padded width number) rest isDigit_padded
  rwa [length_padded positive short, digitsValue_padded] at taken

/-- Too few digits before a mark are not taken. -/
theorem takeDigits_short {digits rest : List Char} {count : Nat} {mark : Char}
    (short : digits.length < count) (noDigit : mark.isDigit = false) :
    takeDigits count (digits ++ mark :: rest) = none := by
  have marked : mark ∈ (digits ++ mark :: rest).take count := by
    rw [List.take_append, List.mem_append]
    right
    obtain ⟨more, counted⟩ := Nat.exists_eq_add_of_lt short
    have remaining : count - digits.length = more + 1 := by omega
    rw [remaining, List.take_succ_cons]
    exact List.mem_cons_self
  rw [takeDigits, if_neg]
  rintro ⟨_, all⟩
  rw [List.all_eq_true.1 all mark marked] at noDigit
  cases noDigit

/-! ### Reading what was written -/

theorem takeFraction_padded {number : Nat} (short : number < 10 ^ 3) (mark : Char) (rest : List Char)
    (noDigit : mark.isDigit = false) :
    takeFraction ('.' :: (padded 3 number ++ mark :: rest)) = some (number * 1000, mark :: rest) := by
  have ends : NoDigitNext (mark :: rest) := by
    intro character next
    cases next
    exact noDigit
  have length : (padded 3 number).length = 3 := length_padded (by decide) short
  simp only [takeFraction, takeWhile_isDigit_append isDigit_padded ends,
    dropWhile_isDigit_append isDigit_padded ends, length, digitsValue_padded]
  rfl

theorem expect_cons (mark : Char) (rest : List Char) : expect mark (mark :: rest) = some rest :=
  if_pos rfl

/-- From the year 1000 on a year fills four digits. -/
theorem padded_year {year : Nat} (long : 1000 ≤ year) (last : year ≤ 9999) :
    padded 4 year = Nat.toDigits 10 year := by
  have tooShort : ¬(Nat.toDigits 10 year).length ≤ 3 := by
    rw [Nat.length_toDigits_le_iff (by decide) (by decide)]
    omega
  have none : 4 - (Nat.toDigits 10 year).length = 0 := by omega
  rw [padded, none]
  rfl

/-- A year of four digits is read, a shorter one is not. -/
theorem takeDigits_year {year : Nat} (last : year ≤ 9999) (rest : List Char) :
    takeDigits 4 (Nat.toDigits 10 year ++ '-' :: rest) =
      if 1000 ≤ year then some (year, '-' :: rest) else none := by
  split
  · next long =>
      rw [← padded_year long last]
      exact takeDigits_padded (by decide) (by omega) _
  · next early =>
      have short : (Nat.toDigits 10 year).length ≤ 3 :=
        (Nat.length_toDigits_le_iff (by decide) (by decide)).2 (by omega)
      exact takeDigits_short (Nat.lt_succ_of_le short) rfl

/-- A part that is read is handed on. -/
theorem bind_of_eq_some {α β : Type} {reading : Option α} {part : α} {next : α → Option β}
    (read : reading = some part) : (reading >>= next) = next part := by
  rw [read]
  rfl

/-- The fields of a timestamp one after the other. -/
theorem fieldsText_eq (moment : Moment) : fieldsText moment = Nat.toDigits 10 moment.date.year ++ '-' ::
    (padded 2 moment.date.month ++ '-' :: (padded 2 moment.date.day ++ 'T' ::
      (padded 2 moment.time.hour ++ ':' :: (padded 2 moment.time.minute ++ ':' ::
        (padded 2 moment.time.second ++ '.' ::
          (padded 3 (moment.time.microsecond / 1000) ++ ['Z'])))))) := by
  simp only [fieldsText, List.append_assoc, List.cons_append]

/-- The reader finds in a text that was written the date, and the time of day to the millisecond,
if the year has four digits. -/
theorem readMoment_fieldsText (moment : Moment) : readMoment (fieldsText moment) =
    if 1000 ≤ moment.date.year then some ⟨moment.date, moment.time.toMillisecond, some .zero⟩
    else none := by
  obtain ⟨_, lastYear, _, lastMonth, _, within⟩ := moment.date.valid
  have lastDay := Nat.le_trans within (daysInMonth_le _ _)
  obtain ⟨hours, minutes, seconds, fine⟩ := moment.time.valid
  have two : ∀ {number : Nat} (rest : List Char), number < 100 →
      takeDigits 2 (padded 2 number ++ rest) = some (number, rest) := fun rest short =>
    takeDigits_padded (by decide) short rest
  have millisecond : moment.time.microsecond / 1000 < 1000 := by omega
  have date : Date.make? moment.date.year moment.date.month moment.date.day = some moment.date :=
    dif_pos moment.date.valid
  have time : TimeOfDay.make? moment.time.hour moment.time.minute moment.time.second
      (moment.time.microsecond / 1000 * 1000) = some moment.time.toMillisecond :=
    dif_pos moment.time.toMillisecond.valid
  rw [fieldsText_eq, readMoment, takeDigits_year lastYear]
  split
  · rw [bind_of_eq_some rfl]
    dsimp only
    rw [bind_of_eq_some (expect_cons _ _), bind_of_eq_some (two _ (by omega))]
    dsimp only
    rw [bind_of_eq_some (expect_cons _ _), bind_of_eq_some (two _ (by omega))]
    dsimp only
    rw [bind_of_eq_some (expect_cons _ _), bind_of_eq_some (two _ (by omega))]
    dsimp only
    rw [bind_of_eq_some (expect_cons _ _), bind_of_eq_some (two _ (by omega))]
    dsimp only
    rw [bind_of_eq_some (expect_cons _ _), bind_of_eq_some (two _ (by omega))]
    dsimp only
    rw [bind_of_eq_some (takeFraction_padded millisecond 'Z' [] rfl)]
    dsimp only
    have zone : readOffset ['Z'] = some 0 := rfl
    have offset : Offset.make? 0 = some .zero := rfl
    rw [bind_of_eq_some zone, bind_of_eq_some date, bind_of_eq_some time, bind_of_eq_some offset]
  · rfl

/-- A moment is written as its form in UTC. -/
theorem write?_of_marks {moment inUtc : Moment} (marks : inUtc.Marks moment.instant) :
    write? moment = some (String.ofList (fieldsText inUtc)) := by
  rw [write?]
  cases known : moment.offset with
  | some offset =>
      dsimp only
      rw [Moment.utc?_eq_some_iff.2 marks, Option.map_some]
  | none =>
      obtain rfl := (Moment.marks_of_offset_eq_none known).unique marks
      rfl

/-- What was written is read as the same instant to the millisecond, from the year 1000 on. A text
with a shorter year is no timestamp. -/
theorem read_of_write? {moment inUtc : Moment} (marks : inUtc.Marks moment.instant) {text : String}
    (written : write? moment = some text) :
    read text = if 1000 ≤ inUtc.date.year then .moment inUtc.toMillisecond else .noTimestamp := by
  rw [write?_of_marks marks] at written
  obtain rfl := Option.some.inj written
  rw [read, String.toList_ofList, readMoment_fieldsText]
  by_cases long : 1000 ≤ inUtc.date.year
  · rw [if_pos long, if_pos long]
    have marksRead := marks.toMillisecond
    have itself : inUtc.toMillisecond.utc? = some inUtc.toMillisecond :=
      Moment.utc?_eq_some_iff.2 ⟨marksRead.inUtc, rfl⟩
    have same : (⟨inUtc.date, inUtc.time.toMillisecond, some .zero⟩ : Moment) =
        inUtc.toMillisecond := by
      rw [Moment.toMillisecond, ← marks.inUtc]
    rw [same]
    dsimp only
    rw [itself]
  · rw [if_neg long, if_neg long]

end Timestamp

end DocumentStore.Calendar
