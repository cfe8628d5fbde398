import DocumentStore.Proofs.Calendar.Timestamps
import DocumentStore.Expression.Render
import DocumentStore.Property

/-!
Contract: a timestamp keeps its moment to the millisecond.

Owns: the moments that have no timestamp, what is read of a timestamp that was written, and that
what is read is written as the same timestamp again.

Does not own: timestamps from elsewhere.

The only loss apart from the microseconds is that of the years below 1000, which are not padded
and so are not read.
-/

set_option autoImplicit false

namespace DocumentStore

/-- What is read of the timestamp of a moment. -/
theorem Value.asMoment_of_written {moment inUtc : Calendar.Moment}
    (marks : inUtc.Marks moment.instant) {text : String}
    (written : Calendar.Timestamp.write? moment = some text) :
    (Value.text text).asMoment =
      .ok (if 1000 ≤ inUtc.date.year then some inUtc.toMillisecond else none) := by
  rw [Value.asMoment, Calendar.Timestamp.read_of_write? marks written]
  by_cases late : 1000 ≤ inUtc.date.year
  · rw [if_pos late, if_pos late]
  · rw [if_neg late, if_neg late]

namespace Calendar.Timestamp

/-- The moments without a timestamp are those that have an offset and no form in UTC. -/
theorem write?_eq_none_iff {moment : Moment} :
    write? moment = none ↔ moment.offset ≠ none ∧ ¬InCalendar moment.instant := by
  rw [write?]
  cases known : moment.offset with
  | none => simp
  | some offset => simp [Moment.utc?_eq_none_iff]

/-- What is finer than a millisecond does not show in a timestamp. -/
theorem fieldsText_toMillisecond (moment : Moment) :
    fieldsText moment.toMillisecond = fieldsText moment := by
  have milliseconds : moment.time.microsecond / 1000 * 1000 / 1000 = moment.time.microsecond / 1000 :=
    Nat.mul_div_cancel _ (by decide)
  rw [fieldsText_eq, fieldsText_eq]
  simp only [Moment.toMillisecond, TimeOfDay.toMillisecond, milliseconds]

/-- A moment has no timestamp, and is refused as one outside of the calendar, exactly if it has an
offset and its form in UTC is not in the years 1 to 9999. Any other moment has a timestamp. From
the year 1000 of UTC on it is read as the same instant in UTC without what is finer than a
millisecond, and that is written as the same timestamp; an earlier one is no timestamp to the
reader. -/
theorem timestamps_are_exact (moment : Moment) :
    (write? moment = none ↔ moment.offset ≠ none ∧ ∀ inUtc : Moment, ¬inUtc.Marks moment.instant)
      ∧ (Expression.renderLiteral (.moment moment) = .error .outsideCalendar ↔
          moment.offset ≠ none ∧ ∀ inUtc : Moment, ¬inUtc.Marks moment.instant)
      ∧ ∀ text ∈ write? moment, ∃ inUtc kept : Moment,
          inUtc.Marks moment.instant ∧ kept.Marks (moment.instant / 1000 * 1000)
            ∧ (1000 ≤ inUtc.date.year → (Value.text text).asMoment = .ok (some kept)
              ∧ write? kept = some text)
            ∧ (inUtc.date.year < 1000 → (Value.text text).asMoment = .ok none) := by
  have outside : (∀ inUtc : Moment, ¬inUtc.Marks moment.instant) ↔ ¬InCalendar moment.instant := by
    rw [← Moment.exists_marks_iff, not_exists]
  rw [outside, ← write?_eq_none_iff]
  refine ⟨Iff.rfl, ?_, fun text written => ?_⟩
  · rw [Expression.renderLiteral]
    cases write? moment <;> simp
  · have inCalendar : InCalendar moment.instant := by
      cases known : moment.offset with
      | none => exact (Moment.marks_of_offset_eq_none known).inCalendar
      | some offset =>
          refine Classical.byContradiction fun outside => ?_
          have none := write?_eq_none_iff.2 ⟨by simp [known], outside⟩
          rw [none] at written
          cases written
    obtain ⟨inUtc, marks⟩ := Moment.exists_marks_iff.2 inCalendar
    have read := Value.asMoment_of_written marks written
    have kept := marks.toMillisecond
    refine ⟨inUtc, inUtc.toMillisecond, marks, kept, fun late => ?_, fun early => ?_⟩
    · rw [if_pos late] at read
      have itself : inUtc.toMillisecond.Marks inUtc.toMillisecond.instant := ⟨kept.inUtc, rfl⟩
      rw [write?_of_marks marks, Option.mem_some_iff] at written
      exact ⟨read, by rw [write?_of_marks itself, fieldsText_toMillisecond, written]⟩
    · rwa [if_neg (Nat.not_le.2 early)] at read

/-- The end of a leap day at an hour behind UTC. -/
def leapEvening : Moment :=
  ⟨⟨2024, 2, 29, by decide⟩, ⟨23, 15, 0, 250999, by decide⟩, some ⟨-3600000000, by decide⟩⟩

theorem leap_evening_is_exact : write? leapEvening = some "2024-03-01T00:15:00.250Z"
    ∧ ∃ kept : Moment, kept.Marks (leapEvening.instant / 1000 * 1000)
      ∧ (Value.text "2024-03-01T00:15:00.250Z").asMoment = .ok (some kept)
      ∧ write? kept = some "2024-03-01T00:15:00.250Z" := by
  have written : write? leapEvening = some "2024-03-01T00:15:00.250Z" := by decide +kernel
  obtain ⟨_, _, exactly⟩ := timestamps_are_exact leapEvening
  obtain ⟨inUtc, kept, marks, keptMarks, late, _⟩ := exactly _ written
  have nextDay : (⟨⟨2024, 3, 1, by decide⟩, ⟨0, 15, 0, 250999, by decide⟩, some .zero⟩ : Moment).Marks
      leapEvening.instant := ⟨rfl, by decide +kernel⟩
  obtain rfl := marks.unique nextDay
  exact ⟨written, kept, keptMarks, late (by decide)⟩

end Calendar.Timestamp

end DocumentStore
