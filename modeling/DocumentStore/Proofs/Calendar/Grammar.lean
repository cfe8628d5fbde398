import DocumentStore.Calendar.Layout
import DocumentStore.Proofs.Calendar.Accuracy

/-!
Contract: the texts that are timestamps, and what is read of each of them.

Owns: the reader on texts that are laid out as a timestamp and on all others, and that the pattern and
the extended form together admit exactly these texts.

Does not own: texts that are written.

Each reader is followed once over the parts of a layout. What the digits of other scripts or a line
feed at the end do to the second test is then a matter of single parts.
-/

set_option autoImplicit false

namespace DocumentStore.Calendar

/-! ### Fields -/

theorem Date.make?_eq_some_iff {year month day : Nat} {date : Date} :
    make? year month day = some date ↔ date.year = year ∧ date.month = month ∧ date.day = day := by
  constructor
  · intro made
    rw [make?] at made
    split at made
    · cases made
      exact ⟨rfl, rfl, rfl⟩
    · cases made
  · rintro ⟨rfl, rfl, rfl⟩
    exact dif_pos date.valid

theorem TimeOfDay.make?_eq_some_iff {hour minute second microsecond : Nat} {time : TimeOfDay} :
    make? hour minute second microsecond = some time ↔ time.hour = hour ∧ time.minute = minute
      ∧ time.second = second ∧ time.microsecond = microsecond := by
  constructor
  · intro made
    rw [make?] at made
    split at made
    · cases made
      exact ⟨rfl, rfl, rfl, rfl⟩
    · cases made
  · rintro ⟨rfl, rfl, rfl, rfl⟩
    exact dif_pos time.valid

theorem Timestamp.offsetOf?_eq_some_iff {microseconds : Int} {offset : Offset} :
    offsetOf? microseconds = some offset ↔ offset.microseconds = microseconds := by
  constructor
  · intro made
    rw [offsetOf?] at made
    split at made
    · cases made
      rfl
    · cases made
  · rintro rfl
    exact dif_pos offset.valid

/-- An offset in seconds is one in microseconds. -/
theorem Offset.make?_eq_offsetOf? (seconds : Int) :
    make? seconds = Timestamp.offsetOf? (seconds * 1000000) := rfl

namespace Timestamp

namespace Layout

/-- The moment of the parts, if there is one. -/
def moment? (layout : Layout) : Option Moment := do
  let date ← Date.make? (digitsValue layout.year) (digitsValue layout.month) (digitsValue layout.day)
  let time ← TimeOfDay.make? (digitsValue layout.hour) (digitsValue layout.minute)
    (digitsValue layout.second) layout.microsecond
  let offset ← Offset.make? layout.zone.seconds
  some ⟨date, time, some offset⟩

theorem moment?_eq_some_iff {layout : Layout} {moment : Moment} :
    layout.moment? = some moment ↔ layout.Names moment := by
  simp only [moment?, bind, Option.bind_eq_some_iff, Date.make?_eq_some_iff,
    TimeOfDay.make?_eq_some_iff, Offset.make?_eq_offsetOf?, offsetOf?_eq_some_iff]
  constructor
  · rintro ⟨date, ⟨year, month, day⟩, time, ⟨hour, minute, second, microsecond⟩, offset, size, same⟩
    cases same
    exact ⟨year, month, day, hour, minute, second, microsecond, offset, rfl, size⟩
  · rintro ⟨year, month, day, hour, minute, second, microsecond, offset, known, size⟩
    refine ⟨moment.date, ⟨year, month, day⟩, moment.time, ⟨hour, minute, second, microsecond⟩, offset,
      size, ?_⟩
    rw [← known]

end Layout

/-! ### Parts -/

section Parts

variable {count : Nat} {digits rest text : List Char}

/-- As many characters as digits are wanted are taken if they are all digits. -/
theorem takeDigits_of_length (length : digits.length = count) : takeDigits count (digits ++ rest) =
    if digits.all Char.isDigit then some (digitsValue digits, rest) else none := by
  subst length
  simp only [takeDigits, List.take_left, List.drop_left, true_and]

theorem takeDigits_of_isRun (run : IsRun Char.isDigit count digits) :
    takeDigits count (digits ++ rest) = some (digitsValue digits, rest) := by
  rw [takeDigits_of_length run.1, if_pos (List.all_eq_true.2 run.2)]

theorem exists_isRun_of_takeDigits {number : Nat} (taken : takeDigits count text = some (number, rest)) :
    ∃ digits, IsRun Char.isDigit count digits ∧ text = digits ++ rest
      ∧ number = digitsValue digits := by
  simp only [takeDigits] at taken
  split at taken
  · next all =>
      cases taken
      exact ⟨text.take count, ⟨all.1, List.all_eq_true.1 all.2⟩, (List.take_append_drop _ _).symm, rfl⟩
  · cases taken

theorem expect_eq_some_iff {mark : Char} : expect mark text = some rest ↔ text = mark :: rest := by
  cases text with
  | nil => simp [expect]
  | cons first others =>
      rw [expect]
      split
      · next same => simp [same]
      · next different => simp [different]

end Parts

section Zones

variable {zone : Zone} {rest text : List Char}

theorem noDigitNext_zone (zone : Zone) : NoDigitNext zone.text := by
  intro character next
  cases zone with
  | utc =>
      cases next
      rfl
  | offset behind hours minutes =>
      cases behind <;> (cases next; rfl)

theorem readOffset_text (made : zone.MadeOf Char.isDigit) :
    readOffset zone.text = some zone.seconds := by
  cases zone with
  | utc => rfl
  | offset behind hours minutes =>
      obtain ⟨hourRun, minuteRun⟩ := made
      have minutesTaken : takeDigits 2 minutes = some (digitsValue minutes, []) := by
        simpa using @takeDigits_of_isRun 2 minutes [] minuteRun
      cases behind <;>
        · show (takeDigits 2 (hours ++ ':' :: minutes) >>= _) = _
          rw [bind_of_eq_some (takeDigits_of_isRun hourRun)]
          dsimp only
          rw [bind_of_eq_some (expect_cons _ _), bind_of_eq_some minutesTaken]
          rfl

theorem exists_zone_of_readOffset {seconds : Int} (read : readOffset text = some seconds) :
    ∃ zone : Zone, zone.MadeOf Char.isDigit ∧ text = zone.text := by
  unfold readOffset at read
  split at read
  · exact ⟨.utc, trivial, rfl⟩
  · next sign rest _ =>
      split at read
      · next signed =>
          simp only [bind, Option.bind_eq_some_iff] at read
          obtain ⟨⟨hour, afterHour⟩, hourTaken, afterColon, colon, ⟨minute, ending⟩, minuteTaken, last⟩ :=
            read
          obtain ⟨hours, hourRun, rfl, _⟩ := exists_isRun_of_takeDigits hourTaken
          obtain rfl := expect_eq_some_iff.1 colon
          obtain ⟨minutes, minuteRun, rfl, _⟩ := exists_isRun_of_takeDigits minuteTaken
          have nothing : ending = [] := by
            cases ending with
            | nil => rfl
            | cons _ _ => cases last
          refine ⟨.offset (sign == '-') hours minutes, ⟨hourRun, minuteRun⟩, ?_⟩
          rcases signed with rfl | rfl <;> simp [Zone.text, nothing]
      · cases read
  · cases read

/-- The decimals of a second are read up to the zone. -/
theorem takeFraction_fractionText {layout : Layout} (made : layout.MadeOf Char.isDigit) :
    takeFraction (layout.fractionText ++ layout.zone.text) =
      some (layout.microsecond, layout.zone.text) := by
  cases given : layout.fraction with
  | none =>
      simp only [Layout.fractionText, Layout.microsecond, given, List.nil_append]
      cases layout.zone with
      | utc => rfl
      | offset behind hours minutes => cases behind <;> rfl
  | some digits =>
      obtain ⟨count, positive, most, length, all⟩ := made.fraction digits given
      have ends := noDigitNext_zone layout.zone
      have bounds : 1 ≤ digits.length ∧ digits.length ≤ 6 := by omega
      simp only [Layout.fractionText, Layout.microsecond, given, List.cons_append, takeFraction,
        takeWhile_isDigit_append all ends, dropWhile_isDigit_append all ends, bounds, and_self, if_true]

theorem exists_fraction_of_takeFraction {microsecond : Nat}
    (taken : takeFraction text = some (microsecond, rest)) :
    ∃ fraction : Option (List Char),
      (∀ digits ∈ fraction, ∃ count, 1 ≤ count ∧ count ≤ 6 ∧ IsRun Char.isDigit count digits)
        ∧ text = (match fraction with
          | none => []
          | some digits => '.' :: digits) ++ rest := by
  unfold takeFraction at taken
  split at taken
  · next others =>
      dsimp only at taken
      split at taken
      · next bounds =>
          cases taken
          refine ⟨some (others.takeWhile Char.isDigit), ?_, ?_⟩
          · rintro digits ⟨⟩
            exact ⟨_, bounds.1, bounds.2, rfl, List.all_eq_true.1 List.all_takeWhile⟩
          · rw [List.cons_append, List.takeWhile_append_dropWhile]
      · cases taken
  · cases taken
    exact ⟨none, by simp, rfl⟩

end Zones

/-! ### The reader -/

section Readers

variable {layout : Layout} {text : List Char} {moment : Moment}

theorem Layout.text_eq (layout : Layout) : layout.text = layout.year ++ '-' :: (layout.month ++ '-' ::
    (layout.day ++ 'T' :: (layout.hour ++ ':' :: (layout.minute ++ ':' :: (layout.second
      ++ (layout.fractionText ++ layout.zone.text)))))) := by
  simp only [Layout.text, Layout.clockText, List.append_assoc, List.cons_append]

/-- The reader finds the moment of the parts in a text that is laid out as a timestamp. -/
theorem readMoment_text (made : layout.MadeOf Char.isDigit) :
    readMoment layout.text = layout.moment? := by
  rw [Layout.text_eq, readMoment, bind_of_eq_some (takeDigits_of_isRun made.year)]
  dsimp only
  rw [bind_of_eq_some (expect_cons _ _), bind_of_eq_some (takeDigits_of_isRun made.month)]
  dsimp only
  rw [bind_of_eq_some (expect_cons _ _), bind_of_eq_some (takeDigits_of_isRun made.day)]
  dsimp only
  rw [bind_of_eq_some (expect_cons _ _), bind_of_eq_some (takeDigits_of_isRun made.hour)]
  dsimp only
  rw [bind_of_eq_some (expect_cons _ _), bind_of_eq_some (takeDigits_of_isRun made.minute)]
  dsimp only
  rw [bind_of_eq_some (expect_cons _ _), bind_of_eq_some (takeDigits_of_isRun made.second)]
  dsimp only
  rw [bind_of_eq_some (takeFraction_fractionText made)]
  dsimp only
  rw [bind_of_eq_some (readOffset_text made.zone)]
  rfl

/-- Whatever the reader accepts is laid out as a timestamp. -/
theorem exists_layout_of_readMoment (read : readMoment text = some moment) :
    ∃ layout : Layout, layout.MadeOf Char.isDigit ∧ text = layout.text := by
  rw [readMoment] at read
  obtain ⟨⟨_, _⟩, yearTaken, read⟩ := Option.bind_eq_some_iff.1 read
  obtain ⟨_, yearEnd, read⟩ := Option.bind_eq_some_iff.1 read
  obtain ⟨⟨_, _⟩, monthTaken, read⟩ := Option.bind_eq_some_iff.1 read
  obtain ⟨_, monthEnd, read⟩ := Option.bind_eq_some_iff.1 read
  obtain ⟨⟨_, _⟩, dayTaken, read⟩ := Option.bind_eq_some_iff.1 read
  obtain ⟨_, dayEnd, read⟩ := Option.bind_eq_some_iff.1 read
  obtain ⟨⟨_, _⟩, hourTaken, read⟩ := Option.bind_eq_some_iff.1 read
  obtain ⟨_, hourEnd, read⟩ := Option.bind_eq_some_iff.1 read
  obtain ⟨⟨_, _⟩, minuteTaken, read⟩ := Option.bind_eq_some_iff.1 read
  obtain ⟨_, minuteEnd, read⟩ := Option.bind_eq_some_iff.1 read
  obtain ⟨⟨_, _⟩, secondTaken, read⟩ := Option.bind_eq_some_iff.1 read
  obtain ⟨⟨_, _⟩, fractionTaken, read⟩ := Option.bind_eq_some_iff.1 read
  obtain ⟨_, zoneRead, _⟩ := Option.bind_eq_some_iff.1 read
  obtain ⟨year, yearRun, rfl, _⟩ := exists_isRun_of_takeDigits yearTaken
  obtain rfl := expect_eq_some_iff.1 yearEnd
  obtain ⟨month, monthRun, rfl, _⟩ := exists_isRun_of_takeDigits monthTaken
  obtain rfl := expect_eq_some_iff.1 monthEnd
  obtain ⟨day, dayRun, rfl, _⟩ := exists_isRun_of_takeDigits dayTaken
  obtain rfl := expect_eq_some_iff.1 dayEnd
  obtain ⟨hour, hourRun, rfl, _⟩ := exists_isRun_of_takeDigits hourTaken
  obtain rfl := expect_eq_some_iff.1 hourEnd
  obtain ⟨minute, minuteRun, rfl, _⟩ := exists_isRun_of_takeDigits minuteTaken
  obtain rfl := expect_eq_some_iff.1 minuteEnd
  obtain ⟨second, secondRun, rfl, _⟩ := exists_isRun_of_takeDigits secondTaken
  obtain ⟨fraction, fractionRun, rfl⟩ := exists_fraction_of_takeFraction fractionTaken
  obtain ⟨zone, zoneMade, rfl⟩ := exists_zone_of_readOffset zoneRead
  refine ⟨⟨year, month, day, hour, minute, second, fraction, zone⟩, ⟨yearRun, monthRun, dayRun, hourRun,
    minuteRun, secondRun, fractionRun, zoneMade⟩, ?_⟩
  rw [Layout.text_eq]
  rfl

/-- The reader accepts exactly the timestamps. -/
theorem readMoment_eq_some_iff : readMoment text = some moment ↔ Spells text moment := by
  constructor
  · intro read
    obtain ⟨layout, made, rfl⟩ := exists_layout_of_readMoment read
    rw [readMoment_text made] at read
    exact ⟨layout, made, rfl, Layout.moment?_eq_some_iff.1 read⟩
  · rintro ⟨layout, made, rfl, names⟩
    rw [readMoment_text made, Layout.moment?_eq_some_iff.2 names]

end Readers

end Timestamp

end DocumentStore.Calendar
