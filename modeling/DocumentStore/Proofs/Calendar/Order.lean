import DocumentStore.Proofs.Calendar.Timestamps
import DocumentStore.Document
import DocumentStore.Expression.Render
import DocumentStore.Parameters

/-!
Contract: timestamps sort as the instants of their moments.

Owns: the order of dates and times of day by their fields, the order of texts that start with
digits, and the comparison of two timestamps as texts.

Does not own: the engines that do such comparisons.

All fields of a timestamp but the year have a fixed width, and the year has four digits from the
year 1000 on. A text of this form is compared field by field, and so is the place of a moment on
the time line, down to the millisecond.
-/

set_option autoImplicit false

namespace DocumentStore

/-! ### Digits -/

/-- Texts that start with equally many digits are in the order of the numbers these stand for, and
where the numbers are the same in the order of what follows. -/
theorem append_lt_append_iff_of_digits {first second : List Char}
    (lengths : first.length = second.length)
    (firstDigits : ∀ digit ∈ first, digit.isDigit = true)
    (secondDigits : ∀ digit ∈ second, digit.isDigit = true) (rest others : List Char) :
    first ++ rest < second ++ others ↔ digitsValue first < digitsValue second
      ∨ digitsValue first = digitsValue second ∧ rest < others := by
  induction first generalizing second with
  | nil =>
      obtain rfl := List.length_eq_zero_iff.1 lengths.symm
      simp
  | cons digit more inductionHypothesis =>
      cases second with
      | nil => cases lengths
      | cons other later =>
          have sameLength : more.length = later.length := Nat.succ.inj lengths
          obtain ⟨isDigit, moreDigits⟩ := List.forall_mem_cons.1 firstDigits
          obtain ⟨isOther, laterDigits⟩ := List.forall_mem_cons.1 secondDigits
          have bounds : 48 ≤ digit.toNat ∧ digit.toNat ≤ 57 := Char.isDigit_iff_toNat.1 isDigit
          have otherBounds : 48 ≤ other.toNat ∧ other.toNat ≤ 57 := Char.isDigit_iff_toNat.1 isOther
          have moreLt := digitsValue_lt moreDigits
          have laterLt := digitsValue_lt laterDigits
          rw [← sameLength] at laterLt
          rw [List.cons_append, List.cons_append, List.cons_lt_cons_iff,
            inductionHypothesis sameLength moreDigits laterDigits, digitsValue_cons, digitsValue_cons,
            ← sameLength, show digit < other ↔ digit.toNat < other.toNat from Iff.rfl]
          rcases Nat.lt_trichotomy digit.toNat other.toNat with less | same | greater
          · -- the first digit decides: what follows it is less than its unit
            have unit : 10 ^ more.length * (digit.toNat - 48 + 1) ≤
                10 ^ more.length * (other.toNat - 48) := Nat.mul_le_mul_left _ (by omega)
            rw [Nat.mul_add] at unit
            simp only [less, true_or, true_iff]
            omega
          · obtain rfl := Char.toNat_inj.1 same
            simp
          · have unit : 10 ^ more.length * (other.toNat - 48 + 1) ≤
                10 ^ more.length * (digit.toNat - 48) := Nat.mul_le_mul_left _ (by omega)
            rw [Nat.mul_add] at unit
            have different : digit ≠ other := by
              rintro rfl
              omega
            simp only [Nat.lt_asymm greater, different, false_and, or_self, false_iff, not_or, not_and]
            omega

namespace Calendar

/-! ### Dates -/

/-- Every year adds its length to the days before it. -/
theorem Date.daysBeforeYear_succ {year : Nat} (positive : 1 ≤ year) :
    daysBeforeYear (year + 1) = daysBeforeYear year + yearLength year := by
  obtain ⟨before, rfl⟩ := Nat.exists_eq_add_of_le' positive
  have quarters : (before + 1) / 4 = before / 4 + if (before + 1) % 4 = 0 then 1 else 0 := by
    split <;> omega
  have hundredths : (before + 1) / 100 = before / 100 + if (before + 1) % 100 = 0 then 1 else 0 := by
    split <;> omega
  have cycles : (before + 1) / 400 = before / 400 + if (before + 1) % 400 = 0 then 1 else 0 := by
    split <;> omega
  have century : (before + 1) % 100 = 0 → (before + 1) % 4 = 0 := by omega
  have cycle : (before + 1) % 400 = 0 → (before + 1) % 100 = 0 := by omega
  have fewer : before / 100 ≤ before / 4 := Nat.div_le_div_left (by decide) (by decide)
  have leap : isLeap (before + 1) = true ↔
      (before + 1) % 4 = 0 ∧ ((before + 1) % 100 ≠ 0 ∨ (before + 1) % 400 = 0) := by
    simp [isLeap]
  simp only [daysBeforeYear, yearLength, leap, Nat.add_sub_cancel, quarters, hundredths, cycles]
  -- a common year, a fourth one, the end of a century and that of a cycle
  repeat' split
  all_goals omega

theorem Date.daysBeforeYear_le {year other : Nat} (positive : 1 ≤ year) (earlier : year < other) :
    daysBeforeYear year + yearLength year ≤ daysBeforeYear other := by
  induction other with
  | zero => omega
  | succ other inductionHypothesis =>
      rcases Nat.lt_or_ge year other with less | last
      · have before := inductionHypothesis less
        rw [daysBeforeYear_succ (by omega)]
        omega
      · obtain rfl : year = other := by omega
        exact Nat.le_of_eq (daysBeforeYear_succ positive).symm

/-- Every month adds its length to the days of the year before it. -/
theorem Date.daysBeforeMonth_succ (year : Nat) {month : Nat} (first : 1 ≤ month) (last : month ≤ 12) :
    daysBeforeMonth year (month + 1) = daysBeforeMonth year month + daysInMonth year month := by
  have before : (monthLengths year).take month =
      (monthLengths year).take (month - 1) ++ [daysInMonth year month] := by
    have bound : month - 1 < (monthLengths year).length := by
      show month - 1 < 12
      omega
    have split := List.take_append_getElem bound
    rw [Nat.sub_add_cancel first] at split
    rw [← split, daysInMonth, if_neg (by omega), List.getD_eq_getElem?_getD,
      List.getElem?_eq_getElem bound]
    rfl
  have counted := daysIn_append ((monthLengths year).take (month - 1)) [daysInMonth year month]
  rw [← before, daysIn_cons] at counted
  exact counted

theorem Date.daysBeforeMonth_le (year : Nat) {month other : Nat} (first : 1 ≤ month)
    (earlier : month < other) (last : other ≤ 12) :
    daysBeforeMonth year month + daysInMonth year month ≤ daysBeforeMonth year other := by
  induction other with
  | zero => omega
  | succ other inductionHypothesis =>
      rcases Nat.lt_or_ge month other with less | adjacent
      · have before := inductionHypothesis less (by omega)
        rw [daysBeforeMonth_succ year (by omega) (by omega)]
        omega
      · obtain rfl : month = other := by omega
        exact Nat.le_of_eq (daysBeforeMonth_succ year first (by omega)).symm

/-- A date stands before another one in the calendar when its year is earlier, or in the same year
its month, or in the same month its day. -/
theorem Date.ordinal_lt_iff {date other : Date} : date.ordinal < other.ordinal ↔
    date.year < other.year ∨ date.year = other.year
      ∧ (date.month < other.month ∨ date.month = other.month ∧ date.day < other.day) := by
  have ordered : ∀ {date other : Date}, (date.year < other.year ∨ date.year = other.year
      ∧ (date.month < other.month ∨ date.month = other.month ∧ date.day < other.day)) →
        date.ordinal < other.ordinal := by
    intro date other fields
    obtain ⟨firstYear, _, firstMonth, lastMonth, firstDay, lastDay⟩ := date.valid
    obtain ⟨_, _, otherMonth, otherLast, otherDay, _⟩ := other.valid
    obtain ⟨inYear, _⟩ := locate_daysBeforeMonth firstMonth lastMonth firstDay lastDay
    simp only [ordinal]
    rcases fields with earlier | ⟨year, earlier | ⟨month, earlier⟩⟩
    · have before := daysBeforeYear_le firstYear earlier
      omega
    · have before := daysBeforeMonth_le date.year firstMonth earlier otherLast
      rw [← year]
      omega
    · rw [← year, ← month]
      omega
  constructor
  · intro less
    refine Classical.byContradiction fun outside => ?_
    rcases Nat.lt_trichotomy date.year other.year with year | year | year
    · exact outside (.inl year)
    · rcases Nat.lt_trichotomy date.month other.month with month | month | month
      · exact outside (.inr ⟨year, .inl month⟩)
      · rcases Nat.lt_trichotomy date.day other.day with day | day | day
        · exact outside (.inr ⟨year, .inr ⟨month, day⟩⟩)
        · simp only [ordinal, year, month, day] at less
          omega
        · have greater := ordered (.inr ⟨year.symm, .inr ⟨month.symm, day⟩⟩)
          omega
      · have greater := ordered (.inr ⟨year.symm, .inl month⟩)
        omega
    · have greater := ordered (.inl year)
      omega
  · exact ordered

/-- The place of a date in the calendar tells its fields. -/
theorem Date.ordinal_eq_iff {date other : Date} : date.ordinal = other.ordinal ↔
    date.year = other.year ∧ date.month = other.month ∧ date.day = other.day := by
  constructor
  · intro same
    have here := ofOrdinal?_eq_some_iff.2 (congrArg Nat.cast same)
    rw [ofOrdinal?_eq_some_iff.2 rfl] at here
    obtain rfl := Option.some.inj here
    exact ⟨rfl, rfl, rfl⟩
  · rintro ⟨year, month, day⟩
    simp only [ordinal, year, month, day]

/-! ### Times of day -/

/-- The whole milliseconds since midnight. -/
def TimeOfDay.milliseconds (time : TimeOfDay) : Nat :=
  (time.hour * 3600 + time.minute * 60 + time.second) * 1000 + time.microsecond / 1000

/-- A time of day is earlier than another one, to the millisecond, when its hour is, or in the same
hour its minute, and so on. -/
theorem TimeOfDay.milliseconds_lt_iff {time other : TimeOfDay} :
    time.milliseconds < other.milliseconds ↔ time.hour < other.hour ∨ time.hour = other.hour
      ∧ (time.minute < other.minute ∨ time.minute = other.minute
        ∧ (time.second < other.second ∨ time.second = other.second
          ∧ time.microsecond / 1000 < other.microsecond / 1000)) := by
  obtain ⟨_, _, _, _⟩ := time.valid
  obtain ⟨_, _, _, _⟩ := other.valid
  simp only [milliseconds]
  omega

namespace Moment

/-- The place on the time line of a moment in UTC, in whole milliseconds. -/
theorem Marks.instant_div {moment : Moment} {instant : Int} (marks : moment.Marks instant) :
    instant / 1000 = (moment.date.ordinal * 86400000 + moment.time.milliseconds : Nat) := by
  rw [← marks.instant_eq, instant_of_inUtc marks.inUtc, TimeOfDay.milliseconds,
    TimeOfDay.microseconds, dayLength]
  omega

/-- Of two moments in UTC the one that is earlier, to the millisecond, has the earlier date, or on
the same date the earlier time of day. -/
theorem Marks.instant_div_lt_iff {moment other : Moment} {instant place : Int}
    (marks : moment.Marks instant) (others : other.Marks place) :
    instant / 1000 < place / 1000 ↔ moment.date.ordinal < other.date.ordinal
      ∨ moment.date.ordinal = other.date.ordinal
        ∧ moment.time.milliseconds < other.time.milliseconds := by
  have inDay : ∀ time : TimeOfDay, time.milliseconds < 86400000 := by
    intro time
    obtain ⟨_, _, _, _⟩ := time.valid
    rw [TimeOfDay.milliseconds]
    omega
  have short := inDay moment.time
  have otherShort := inDay other.time
  rw [marks.instant_div, others.instant_div]
  omega

end Moment

namespace Timestamp

/-! ### Texts -/

theorem padded_append_lt_iff {width number other : Nat} (positive : 0 < width)
    (short : number < 10 ^ width) (otherShort : other < 10 ^ width) (rest others : List Char) :
    padded width number ++ rest < padded width other ++ others ↔
      number < other ∨ number = other ∧ rest < others := by
  have lengths := (length_padded positive short).trans (length_padded positive otherShort).symm
  have compared := append_lt_append_iff_of_digits lengths isDigit_padded isDigit_padded rest others
  rwa [digitsValue_padded, digitsValue_padded] at compared

/-- The texts of two moments are in the order of the moments' fields, if the years have four
digits. -/
theorem fieldsText_lt_iff {moment other : Moment} (late : 1000 ≤ moment.date.year)
    (otherLate : 1000 ≤ other.date.year) : fieldsText moment < fieldsText other ↔
      moment.date.ordinal < other.date.ordinal ∨ moment.date.ordinal = other.date.ordinal
        ∧ moment.time.milliseconds < other.time.milliseconds := by
  obtain ⟨_, lastYear, _, lastMonth, _, lastDay⟩ := moment.date.valid
  obtain ⟨_, otherYear, _, otherMonth, _, otherDay⟩ := other.date.valid
  obtain ⟨hour, minute, second, fine⟩ := moment.time.valid
  obtain ⟨otherHour, otherMinute, otherSecond, otherFine⟩ := other.time.valid
  have day := daysInMonth_le moment.date.year moment.date.month
  have dayOfOther := daysInMonth_le other.date.year other.date.month
  have two : ∀ {number another : Nat} (rest others : List Char), number < 100 → another < 100 →
      (padded 2 number ++ rest < padded 2 another ++ others ↔
        number < another ∨ number = another ∧ rest < others) := fun rest others short otherShort =>
    padded_append_lt_iff (by decide) short otherShort rest others
  rw [fieldsText_eq, fieldsText_eq, ← padded_year late lastYear, ← padded_year otherLate otherYear,
    padded_append_lt_iff (by decide) (by omega) (by omega), List.cons_lt_cons_self,
    two _ _ (by omega) (by omega), List.cons_lt_cons_self,
    two _ _ (by omega) (by omega), List.cons_lt_cons_self,
    two _ _ (by omega) (by omega), List.cons_lt_cons_self,
    two _ _ (by omega) (by omega), List.cons_lt_cons_self,
    two _ _ (by omega) (by omega), List.cons_lt_cons_self,
    padded_append_lt_iff (by decide) (by omega) (by omega),
    Date.ordinal_lt_iff, Date.ordinal_eq_iff, TimeOfDay.milliseconds_lt_iff]
  have same : ¬['Z'] < ['Z'] := List.lt_irrefl _
  simp only [same, and_false, or_false, and_or_left, or_assoc, and_assoc]

/-- Timestamps whose years in UTC have four digits are, as texts, in the order of the instants of
their moments, to the millisecond. A date that is rendered as a literal or bound to a parameter,
and a date that a property is set to, are such texts. -/
theorem timestamps_sort_as_instants {first second inUtc others : Moment}
    (marks : inUtc.Marks first.instant) (othersMark : others.Marks second.instant)
    (late : 1000 ≤ inUtc.date.year) (othersLate : 1000 ≤ others.date.year) :
    ∃ text other, write? first = some text ∧ write? second = some other
      ∧ (text < other ↔ first.instant / 1000 < second.instant / 1000)
      ∧ (text = other ↔ first.instant / 1000 = second.instant / 1000)
      ∧ (other < text ↔ second.instant / 1000 < first.instant / 1000)
      ∧ (∀ store, Expression.render store (.literal (.moment first)) = .ok (.text text))
      ∧ (∀ identity,
          Parameter.ofMoment identity (some first) = .ok ⟨identity, .text text, .date⟩)
      ∧ ∀ (document : Document) store key,
          document.setMoment store key (some second) = .ok (document.set store key (.text other)) := by
  have written := write?_of_marks marks
  have otherWritten := write?_of_marks othersMark
  have before : String.ofList (fieldsText inUtc) < String.ofList (fieldsText others) ↔
      first.instant / 1000 < second.instant / 1000 := by
    rw [String.lt_iff, String.toList_ofList, String.toList_ofList, fieldsText_lt_iff late othersLate,
      marks.instant_div_lt_iff othersMark]
  have after : String.ofList (fieldsText others) < String.ofList (fieldsText inUtc) ↔
      second.instant / 1000 < first.instant / 1000 := by
    rw [String.lt_iff, String.toList_ofList, String.toList_ofList, fieldsText_lt_iff othersLate late,
      othersMark.instant_div_lt_iff marks]
  have equal : String.ofList (fieldsText inUtc) = String.ofList (fieldsText others) ↔
      first.instant / 1000 = second.instant / 1000 := by
    constructor
    · intro same
      rw [same] at before after
      have notBefore := mt before.2 (String.lt_irrefl _)
      have notAfter := mt after.2 (String.lt_irrefl _)
      omega
    · intro same
      have notBefore := mt before.1 (by omega)
      have notAfter := mt after.1 (by omega)
      exact String.le_antisymm notAfter notBefore
  refine ⟨_, _, written, otherWritten, before, equal, after, fun store => ?_, fun identity => ?_,
    fun document store key => ?_⟩
  · rw [Expression.render, Expression.renderLiteral, written]
  · simp only [Parameter.ofMoment, written]
  · simp only [Document.setMoment, otherWritten]

/-- The last minute of a year in UTC. -/
def lastMinute : Moment :=
  ⟨⟨2023, 12, 31, by decide⟩, ⟨23, 59, 0, 999999, by decide⟩, none⟩

/-- The first morning of the next year, far ahead of UTC, where the year before has not ended yet. -/
def firstMorning : Moment :=
  ⟨⟨2024, 1, 1, by decide⟩, ⟨9, 0, 0, 0, by decide⟩, some ⟨36000000000, by decide⟩⟩

theorem first_morning_sorts_before_last_minute :
    ∃ text other, write? firstMorning = some text ∧ write? lastMinute = some other ∧ text < other
      ∧ firstMorning.instant / 1000 < lastMinute.instant / 1000 := by
  have marks : (⟨⟨2023, 12, 31, by decide⟩, ⟨23, 0, 0, 0, by decide⟩, some .zero⟩ : Moment).Marks
      firstMorning.instant := ⟨rfl, by decide +kernel⟩
  have othersMark : ({ lastMinute with offset := some .zero } : Moment).Marks lastMinute.instant :=
    ⟨rfl, by decide +kernel⟩
  obtain ⟨text, other, written, otherWritten, before, _⟩ :=
    timestamps_sort_as_instants marks othersMark (by decide) (by decide)
  have earlier : firstMorning.instant / 1000 < lastMinute.instant / 1000 := by decide +kernel
  exact ⟨text, other, written, otherWritten, before.2 earlier, earlier⟩

end Timestamp

end Calendar

end DocumentStore
