import DocumentStore.Calendar.Date

/-!
Contract: the count of days numbers the dates of the calendar without gaps.

Owns: the day of a year and its month, the place of a date in the calendar, and the date at a
place.

Does not own: times of day and offsets.

A place is taken apart in one way only, into whole years before it and days of its year. What
`ofOrdinal?` makes of a place is said once, in these terms, by `ofOrdinal?_eq`.
-/

set_option autoImplicit false

namespace DocumentStore.Calendar

/-! ### Years -/

/-- The number of days in a year. -/
def yearLength (year : Nat) : Nat :=
  if isLeap year then 366 else 365

/-- The year that lies some cycles of 400 years, centuries, quadrennia and years after the first. -/
def yearOf (cycles centuries quadrennia years : Nat) : Nat :=
  400 * cycles + 100 * centuries + 4 * quadrennia + years + 1

section Cycles

variable (cycles : Nat) {centuries quadrennia years : Nat} (century : centuries < 4)
  (quadrennium : quadrennia < 25) (inQuadrennium : years < 4)

include century quadrennium inQuadrennium

/-- Of a quadrennium the last year is a leap year, unless it ends a century that does not end a
cycle. -/
theorem isLeap_yearOf : isLeap (yearOf cycles centuries quadrennia years) = true ↔
    years = 3 ∧ (quadrennia ≠ 24 ∨ centuries = 3) := by
  simp only [isLeap, yearOf, Bool.and_eq_true, Bool.or_eq_true, beq_iff_eq, bne_iff_ne]
  omega

theorem daysBeforeYear_yearOf : Date.daysBeforeYear (yearOf cycles centuries quadrennia years) =
    146097 * cycles + 36524 * centuries + 1461 * quadrennia + 365 * years := by
  have quarters : (yearOf cycles centuries quadrennia years - 1) / 4 =
      100 * cycles + 25 * centuries + quadrennia := by
    rw [yearOf]
    omega
  have hundredths : (yearOf cycles centuries quadrennia years - 1) / 100 =
      4 * cycles + centuries := by
    rw [yearOf]
    omega
  have cyclesBefore : (yearOf cycles centuries quadrennia years - 1) / 400 = cycles := by
    rw [yearOf]
    omega
  simp only [Date.daysBeforeYear, quarters, hundredths, cyclesBefore]
  rw [yearOf]
  omega

/-- The days of a year are numbered up to 364, and up to 365 in a leap year. -/
theorem le_days_of_lt_yearLength {inYear : Nat}
    (short : inYear < yearLength (yearOf cycles centuries quadrennia years)) :
    inYear ≤ 364 ∨ inYear = 365 ∧ years = 3 ∧ (quadrennia ≠ 24 ∨ centuries = 3) := by
  rw [yearLength] at short
  split at short
  · next leap =>
      have parts := (isLeap_yearOf cycles century quadrennium inQuadrennium).1 leap
      omega
  · omega

end Cycles

/-- Every year lies some cycles, centuries, quadrennia and years after the first. -/
theorem exists_yearOf {year : Nat} (positive : 1 ≤ year) :
    ∃ cycles centuries quadrennia years, centuries < 4 ∧ quadrennia < 25 ∧ years < 4
      ∧ year = yearOf cycles centuries quadrennia years := by
  refine ⟨(year - 1) / 400, (year - 1) % 400 / 100, (year - 1) % 100 / 4, (year - 1) % 4, by omega,
    by omega, by omega, ?_⟩
  rw [yearOf]
  omega

/-- Every count of days is that of the years before some year and of days in this year. -/
theorem exists_year_of_days (days : Nat) :
    ∃ year inYear, 1 ≤ year ∧ inYear < yearLength year
      ∧ days = Date.daysBeforeYear year + inYear := by
  let inCycle := days % 146097
  let centuries := min (inCycle / 36524) 3
  let inCentury := inCycle - centuries * 36524
  let quadrennia := inCentury / 1461
  let inQuadrennium := inCentury % 1461
  let years := min (inQuadrennium / 365) 3
  have century : centuries < 4 := by omega
  have quadrennium : quadrennia < 25 := by omega
  have inQuadrennium : years < 4 := by omega
  have leap := isLeap_yearOf (days / 146097) century quadrennium inQuadrennium
  have before := daysBeforeYear_yearOf (days / 146097) century quadrennium inQuadrennium
  refine ⟨yearOf (days / 146097) centuries quadrennia years,
    inCentury % 1461 - years * 365, Nat.succ_pos _, ?_, ?_⟩
  · simp only [yearLength, leap]
    split <;> omega
  · rw [before]
    omega

/-! ### Months -/

/-- The number of days in some months, given their lengths. -/
def daysIn (lengths : List Nat) : Nat :=
  lengths.foldl (· + ·) 0

theorem daysIn_cons (length : Nat) (rest : List Nat) :
    daysIn (length :: rest) = length + daysIn rest := by
  rw [daysIn, List.foldl_cons, Nat.add_comm 0 length, List.foldl_assoc]
  rfl

theorem daysIn_append (first second : List Nat) :
    daysIn (first ++ second) = daysIn first + daysIn second := by
  induction first with
  | nil => exact (Nat.zero_add _).symm
  | cons length rest inductionHypothesis =>
      rw [List.cons_append, daysIn_cons, daysIn_cons, inductionHypothesis, Nat.add_assoc]

theorem daysIn_monthLengths (year : Nat) : daysIn (monthLengths year) = yearLength year := by
  rw [monthLengths, yearLength]
  cases isLeap year <;> rfl

theorem daysInMonth_le (year month : Nat) : daysInMonth year month ≤ 31 := by
  have lengths : ∀ length ∈ monthLengths year, length ≤ 31 := by
    rw [monthLengths]
    cases isLeap year <;> decide
  rw [daysInMonth]
  split
  · exact Nat.zero_le _
  · rw [List.getD_eq_getElem?_getD]
    cases found : (monthLengths year)[month - 1]? with
    | none => exact Nat.zero_le _
    | some length => exact lengths length (List.mem_of_getElem? found)

/-- A day within some months lies in one of them, after all days of the earlier ones. -/
theorem exists_month_of_days {lengths : List Nat} {days : Nat} (short : days < daysIn lengths) :
    ∃ earlier length later inMonth, lengths = earlier ++ length :: later ∧ inMonth < length
      ∧ days = daysIn earlier + inMonth := by
  induction lengths generalizing days with
  | nil => exact absurd short (Nat.not_lt_zero _)
  | cons length rest inductionHypothesis =>
      rw [daysIn_cons] at short
      rcases Nat.lt_or_ge days length with within | beyond
      · exact ⟨[], length, rest, days, rfl, within, (Nat.zero_add _).symm⟩
      · have remaining : days - length < daysIn rest := by omega
        obtain ⟨earlier, other, later, inMonth, rfl, within, counted⟩ :=
          inductionHypothesis remaining
        refine ⟨length :: earlier, other, later, inMonth, rfl, within, ?_⟩
        rw [daysIn_cons]
        omega

namespace Date

/-- A day that comes after some whole months is found in the month after them. -/
theorem locate_append (earlier later : List Nat) {length inMonth : Nat} (within : inMonth < length)
    (month : Nat) :
    locate (earlier ++ length :: later) month (daysIn earlier + inMonth) =
      (month + earlier.length, inMonth + 1) := by
  induction earlier generalizing month with
  | nil =>
      rw [List.nil_append, daysIn, List.foldl_nil, Nat.zero_add, locate, if_pos within]
      rfl
  | cons first rest inductionHypothesis =>
      have beyond : ¬daysIn (first :: rest) + inMonth < first := by
        rw [daysIn_cons]
        omega
      have remaining : daysIn (first :: rest) + inMonth - first = daysIn rest + inMonth := by
        rw [daysIn_cons]
        omega
      rw [List.cons_append, locate, if_neg beyond, remaining, inductionHypothesis, List.length_cons]
      congr 1
      omega

section Fields

variable {year : Nat}

/-- The months of a year before a month, this month and those after it. -/
theorem monthLengths_split (year : Nat) {month : Nat} (first : 1 ≤ month) (last : month ≤ 12) :
    monthLengths year = (monthLengths year).take (month - 1)
      ++ daysInMonth year month :: (monthLengths year).drop month := by
  have bound : month - 1 < (monthLengths year).length := by
    show month - 1 < 12
    omega
  have length : daysInMonth year month = (monthLengths year)[month - 1] := by
    rw [daysInMonth, if_neg (by omega), List.getD_eq_getElem?_getD, List.getElem?_eq_getElem bound]
    rfl
  have rest := List.drop_eq_getElem_cons bound
  rw [Nat.sub_add_cancel first] at rest
  rw [length, ← rest, List.take_append_drop]

/-- The month and the day of a date are found again from the day of its year. -/
theorem locate_daysBeforeMonth {month day : Nat} (first : 1 ≤ month) (last : month ≤ 12)
    (positive : 1 ≤ day) (within : day ≤ daysInMonth year month) :
    daysBeforeMonth year month + (day - 1) < yearLength year
      ∧ locate (monthLengths year) 1 (daysBeforeMonth year month + (day - 1)) = (month, day) := by
  have split := monthLengths_split year first last
  have short : day - 1 < daysInMonth year month := by omega
  have counted : (daysIn ((monthLengths year).take (month - 1))) = daysBeforeMonth year month := rfl
  constructor
  · rw [← daysIn_monthLengths, split, daysIn_append, daysIn_cons, counted]
    omega
  · have located := locate_append ((monthLengths year).take (month - 1))
      ((monthLengths year).drop month) short 1
    rw [← split, counted, List.length_take] at located
    have length : (monthLengths year).length = 12 := rfl
    rw [located, length]
    congr 1 <;> omega

/-- Every day of a year is a day of one of its months. -/
theorem exists_month {inYear : Nat} (short : inYear < yearLength year) :
    ∃ month day, 1 ≤ month ∧ month ≤ 12 ∧ 1 ≤ day ∧ day ≤ daysInMonth year month
      ∧ inYear = daysBeforeMonth year month + (day - 1) := by
  rw [← daysIn_monthLengths] at short
  obtain ⟨earlier, length, later, inMonth, split, within, counted⟩ := exists_month_of_days short
  have twelve : earlier.length + (later.length + 1) = 12 := by
    have lengths := congrArg List.length split
    rw [List.length_append, List.length_cons] at lengths
    exact lengths.symm
  refine ⟨earlier.length + 1, inMonth + 1, Nat.succ_pos _, by omega, Nat.succ_pos _, ?_, ?_⟩
  · rw [daysInMonth, if_neg (Nat.succ_ne_zero _), split, Nat.add_sub_cancel,
      List.getD_eq_getElem?_getD, List.getElem?_append_right (Nat.le_refl _), Nat.sub_self]
    exact within
  · rw [daysBeforeMonth, split, Nat.add_sub_cancel, Nat.add_sub_cancel, List.take_left]
    exact counted

end Fields

/-- Whole units taken off, at most so many: the last of these may be longer than the others. -/
private theorem min_div_eq {unit count rest limit : Nat} (positive : 0 < unit) (within : count ≤ limit)
    (short : rest < unit ∨ count = limit) : min ((unit * count + rest) / unit) limit = count := by
  rw [Nat.mul_add_div positive]
  rcases short with inside | last
  · rw [Nat.div_eq_of_lt inside]
    exact Nat.min_eq_left within
  · rw [last]
    exact Nat.min_eq_right (Nat.le_add_right _ _)

/-- The date at a place that is given by its year and the day of this year. -/
theorem ofOrdinal?_eq {year inYear : Nat} (positive : 1 ≤ year) (short : inYear < yearLength year) :
    ofOrdinal? ((daysBeforeYear year + inYear + 1 : Nat) : Int) =
      make? year (locate (monthLengths year) 1 inYear).1 (locate (monthLengths year) 1 inYear).2 := by
  obtain ⟨cycles, centuries, quadrennia, years, century, quadrennium, inQuadrennium, rfl⟩ :=
    exists_yearOf positive
  have bound := le_days_of_lt_yearLength cycles century quadrennium inQuadrennium short
  have counted : daysBeforeYear (yearOf cycles centuries quadrennia years) + inYear =
      146097 * cycles + (36524 * centuries + (1461 * quadrennia + (365 * years + inYear))) := by
    rw [daysBeforeYear_yearOf cycles century quadrennium inQuadrennium]
    simp only [Nat.add_assoc]
  clear short
  have cycleShort : 36524 * centuries + (1461 * quadrennia + (365 * years + inYear)) < 146097 := by
    omega
  have centuryShort : 1461 * quadrennia + (365 * years + inYear) < 36524 ∨ centuries = 3 := by omega
  have quadrenniumShort : 365 * years + inYear < 1461 := by omega
  have yearShort : inYear < 365 ∨ years = 3 := by omega
  have notEarlier : ¬((146097 * cycles + (36524 * centuries + (1461 * quadrennia
      + (365 * years + inYear))) + 1 : Nat) : Int) < 1 := Int.not_lt.2 (Int.ofNat_le.2 (Nat.succ_pos _))
  rw [counted, ofOrdinal?, if_neg notEarlier]
  simp only [Int.toNat_natCast, Nat.add_sub_cancel, Nat.mul_add_div (by decide : 0 < 146097),
    Nat.div_eq_of_lt cycleShort, Nat.mul_add_mod, Nat.mod_eq_of_lt cycleShort, Nat.add_zero,
    min_div_eq (by decide) (Nat.le_of_lt_succ century) centuryShort, Nat.mul_comm centuries,
    Nat.add_sub_cancel_left, Nat.mul_add_div (by decide : 0 < 1461), Nat.div_eq_of_lt quadrenniumShort,
    Nat.mod_eq_of_lt quadrenniumShort,
    min_div_eq (by decide) (Nat.le_of_lt_succ inQuadrennium) yearShort, Nat.mul_comm years]
  rfl

/-- The last place of the calendar, that of the last day of year 9999. -/
def lastOrdinal : Nat :=
  3652059

theorem ordinal_eq (date : Date) :
    date.ordinal = daysBeforeYear date.year + (daysBeforeMonth date.year date.month + (date.day - 1))
      + 1 := by
  have positive := date.valid.2.2.2.2.1
  rw [ordinal]
  omega

/-- The years up to 9999 have the places up to the last one. -/
theorem year_le_iff {year inYear : Nat} (positive : 1 ≤ year) (short : inYear < yearLength year) :
    year ≤ 9999 ↔ daysBeforeYear year + inYear < lastOrdinal := by
  obtain ⟨cycles, centuries, quadrennia, years, century, quadrennium, inQuadrennium, rfl⟩ :=
    exists_yearOf positive
  have before := daysBeforeYear_yearOf cycles century quadrennium inQuadrennium
  have bound := le_days_of_lt_yearLength cycles century quadrennium inQuadrennium short
  rw [before, lastOrdinal, yearOf]
  omega

/-- A date is found again at its place, and only there. -/
theorem ofOrdinal?_eq_some_iff {place : Int} {date : Date} :
    ofOrdinal? place = some date ↔ (date.ordinal : Int) = place := by
  constructor
  · intro found
    have positive : 1 ≤ place := by
      refine Int.not_lt.1 fun early => ?_
      rw [ofOrdinal?, if_pos early] at found
      cases found
    obtain ⟨year, inYear, first, short, counted⟩ := exists_year_of_days (place.toNat - 1)
    obtain ⟨month, day, firstMonth, lastMonth, firstDay, within, rfl⟩ := exists_month short
    obtain ⟨_, located⟩ := locate_daysBeforeMonth firstMonth lastMonth firstDay within
    have placed : place =
        ((daysBeforeYear year + (daysBeforeMonth year month + (day - 1)) + 1 : Nat) : Int) := by
      omega
    rw [placed, ofOrdinal?_eq first short, located, make?] at found
    split at found
    · cases found
      rw [ordinal_eq, placed]
    · cases found
  · rintro rfl
    obtain ⟨first, last, firstMonth, lastMonth, positive, within⟩ := date.valid
    obtain ⟨short, located⟩ := locate_daysBeforeMonth firstMonth lastMonth positive within
    rw [ordinal_eq, ofOrdinal?_eq first short, located, make?, dif_pos date.valid]

/-- The dates have the places from 1 to the last one, without gaps. -/
theorem exists_ordinal_iff {place : Int} :
    (∃ date : Date, (date.ordinal : Int) = place) ↔ 1 ≤ place ∧ place ≤ lastOrdinal := by
  constructor
  · rintro ⟨date, rfl⟩
    obtain ⟨first, last, firstMonth, lastMonth, positive, within⟩ := date.valid
    obtain ⟨short, _⟩ := locate_daysBeforeMonth firstMonth lastMonth positive within
    have bound := (year_le_iff first short).1 last
    rw [ordinal_eq]
    omega
  · rintro ⟨positive, last⟩
    obtain ⟨year, inYear, first, short, counted⟩ := exists_year_of_days (place.toNat - 1)
    have lastYear : year ≤ 9999 := (year_le_iff first short).2 (by omega)
    obtain ⟨month, day, firstMonth, lastMonth, firstDay, within, rfl⟩ := exists_month short
    refine ⟨⟨year, month, day, first, lastYear, firstMonth, lastMonth, firstDay, within⟩, ?_⟩
    rw [ordinal_eq, ← counted]
    omega

end Date

end DocumentStore.Calendar
