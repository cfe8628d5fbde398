import DocumentStore.Proofs.Calendar.Grammar

/-!
Contract: a text is a timestamp if it passes two tests one after the other.

Owns: what the extended form makes of a text that has passed the pattern, and the answers to all
texts.

Does not own: either test on other texts.

After the pattern has passed a text its parts are known, and the zone is spelled out. The reading of
the extended form goes through the same parts; it stops at a digit of another script and at a line
feed after the zone.
-/

set_option autoImplicit false

namespace DocumentStore.Calendar.Timestamp

/-! ### Digits of all scripts -/

theorem isRun_of_all {digit : Char → Bool} {digits : List Char} (all : digits.all digit = true) :
    IsRun digit digits.length digits :=
  ⟨rfl, List.all_eq_true.1 all⟩

section Scripts

variable {character mark : Char} {count : Nat} {digits : List Char}

theorem isDecimal_of_isDigit (digit : character.isDigit = true) : isDecimal character = true := by
  have bounds : 48 ≤ character.toNat ∧ character.toNat ≤ 57 := Char.isDigit_iff_toNat.1 digit
  refine List.any_eq_true.2 ⟨0x30, List.mem_cons_self, decide_eq_true ?_⟩
  omega

theorem ne_of_isDecimal (decimal : isDecimal character = true) (other : isDecimal mark = false) :
    character ≠ mark := by
  rintro rfl
  rw [decimal] at other
  cases other

theorem startsZone_of_isDecimal (decimal : isDecimal character = true) :
    startsZone character = false := by
  have plus := ne_of_isDecimal decimal (by decide : isDecimal '+' = false)
  have minus := ne_of_isDecimal decimal (by decide : isDecimal '-' = false)
  have utc := ne_of_isDecimal decimal (by decide : isDecimal 'Z' = false)
  simp [startsZone, plus, minus, utc]

/-- A part in the digits of any scripts is one in the digits `0` to `9` if it is made of these. -/
theorem isRun_isDigit_iff (run : IsRun isDecimal count digits) :
    IsRun Char.isDigit count digits ↔ digits.all Char.isDigit = true := by
  rw [IsRun, List.all_eq_true]
  exact and_iff_right run.1

/-- A reading goes on after a part of the right length if this is made of the digits `0` to `9`. -/
theorem takeDigits_bind_eq_some_iff {Result : Type} {result : Result} {rest : List Char}
    {next : Nat × List Char → Option Result} (run : IsRun isDecimal count digits) :
    (takeDigits count (digits ++ rest) >>= next) = some result ↔
      digits.all Char.isDigit = true ∧ next (digitsValue digits, rest) = some result := by
  rw [takeDigits_of_length run.1]
  by_cases all : digits.all Char.isDigit = true
  · rw [if_pos all, and_iff_right all]
    rfl
  · rw [if_neg all]
    exact ⟨fun read => (nomatch read), fun read => absurd read.1 all⟩

end Scripts

section Classes

variable {digit other : Char → Bool} (wider : ∀ character, digit character = true → other character = true)

include wider

theorem IsRun.mono {count : Nat} {digits : List Char} (run : IsRun digit count digits) :
    IsRun other count digits :=
  ⟨run.1, fun character member => wider character (run.2 character member)⟩

theorem Zone.MadeOf.mono : ∀ {zone : Zone}, zone.MadeOf digit → zone.MadeOf other
  | .utc, _ => trivial
  | .offset _ _ _, made => ⟨made.1.mono wider, made.2.mono wider⟩

theorem Layout.MadeOf.mono {layout : Layout} (made : layout.MadeOf digit) : layout.MadeOf other where
  year := made.year.mono wider
  month := made.month.mono wider
  day := made.day.mono wider
  hour := made.hour.mono wider
  minute := made.minute.mono wider
  second := made.second.mono wider
  fraction := fun digits given => by
    obtain ⟨count, positive, most, run⟩ := made.fraction digits given
    exact ⟨count, positive, most, run.mono wider⟩
  zone := made.zone.mono wider

end Classes

/-! ### The zone spelled out -/

section SpellingOut

variable {first second : List Char}

theorem spellOutZone_append : spellOutZone (first ++ second) =
    spellOutZone first ++ spellOutZone second :=
  List.flatMap_append

theorem spellOutZone_of_forall_ne (different : ∀ character ∈ first, character ≠ 'Z') :
    spellOutZone first = first := by
  induction first with
  | nil => rfl
  | cons character rest inductionHypothesis =>
      obtain ⟨here, later⟩ := List.forall_mem_cons.1 different
      have rewritten := inductionHypothesis later
      simp only [spellOutZone, List.flatMap_cons] at rewritten ⊢
      rw [if_neg here, rewritten]
      rfl

theorem spellOutZone_zone {zone : Zone} (made : zone.MadeOf isDecimal) :
    spellOutZone zone.text = zone.spelledOut.text := by
  cases zone with
  | utc => rfl
  | offset behind hours minutes =>
      refine spellOutZone_of_forall_ne fun character member => ?_
      simp only [Zone.text, List.mem_cons, List.mem_append] at member
      rcases member with sign | hour | colon | minute
      · cases behind <;> (rw [sign]; decide)
      · exact ne_of_isDecimal (made.1.2 character hour) (by decide)
      · rw [colon]
        decide
      · exact ne_of_isDecimal (made.2.2 character minute) (by decide)

end SpellingOut

section Parts

variable {layout : Layout} (made : layout.MadeOf isDecimal)

include made

/-- Every character of a time of day is a digit or one of the marks between its parts. -/
theorem isDecimal_of_mem_clockText : ∀ character ∈ layout.clockText,
    isDecimal character = true ∨ character = ':' ∨ character = '.' := by
  have fraction : ∀ character ∈ layout.fractionText, isDecimal character = true ∨ character = '.' := by
    rw [Layout.fractionText]
    cases given : layout.fraction with
    | none => simp
    | some digits =>
        obtain ⟨count, _, _, run⟩ := made.fraction digits given
        exact List.forall_mem_cons.2 ⟨.inr rfl, fun character member => .inl (run.2 character member)⟩
  intro character member
  simp only [Layout.clockText, List.mem_append, List.mem_cons] at member
  rcases member with hour | colon | minute | colon | second | decimals
  · exact .inl (made.hour.2 character hour)
  · exact .inr (.inl colon)
  · exact .inl (made.minute.2 character minute)
  · exact .inr (.inl colon)
  · exact .inl (made.second.2 character second)
  · exact (fraction character decimals).imp_right .inr

theorem startsZone_of_mem_clockText :
    ∀ character ∈ layout.clockText, startsZone character = false := by
  intro character member
  rcases isDecimal_of_mem_clockText made character member with decimal | rfl | rfl
  · exact startsZone_of_isDecimal decimal
  · rfl
  · rfl

/-- The date and the time of day of a text are left as they are when its zone is spelled out. -/
theorem spellOutZone_text {ending : List Char} (ends : ∀ character ∈ ending, character ≠ 'Z') :
    spellOutZone (layout.text ++ ending) = layout.year ++ '-' :: (layout.month ++ '-' ::
      (layout.day ++ 'T' :: (layout.clockText ++ (layout.zone.spelledOut.text ++ ending)))) := by
  have digits : ∀ {count : Nat} {digits : List Char}, IsRun isDecimal count digits →
      spellOutZone digits = digits := fun run =>
    spellOutZone_of_forall_ne fun character member => ne_of_isDecimal (run.2 character member) (by decide)
  have clock : spellOutZone layout.clockText = layout.clockText := by
    refine spellOutZone_of_forall_ne fun character member => ?_
    rcases isDecimal_of_mem_clockText made character member with decimal | rfl | rfl
    · exact ne_of_isDecimal decimal (by decide)
    · decide
    · decide
  have marks : ∀ {mark : Char} {rest : List Char}, mark ≠ 'Z' →
      spellOutZone (mark :: rest) = mark :: spellOutZone rest := by
    intro mark rest other
    simp only [spellOutZone, List.flatMap_cons, if_neg other]
    rfl
  rw [Layout.text, spellOutZone_append, spellOutZone_of_forall_ne ends, spellOutZone_append,
    digits made.year, marks (by decide), spellOutZone_append, digits made.month, marks (by decide),
    spellOutZone_append, digits made.day, marks (by decide), spellOutZone_append, clock,
    spellOutZone_zone made.zone]
  simp only [List.append_assoc, List.cons_append]

end Parts

/-! ### The extended form -/

section Extended

variable {layout : Layout}

/-- The decimals of a layout are read if they are digits `0` to `9`. -/
theorem readDecimals_fractionText {microsecond : Nat} (made : layout.MadeOf isDecimal) :
    readDecimals layout.fractionText = some microsecond ↔
      (∀ digits ∈ layout.fraction, digits.all Char.isDigit = true)
        ∧ microsecond = layout.microsecond := by
  cases given : layout.fraction with
  | none =>
      simp only [Layout.fractionText, Layout.microsecond, given, readDecimals, Option.some.injEq]
      rw [eq_comm]
      simp
  | some digits =>
      obtain ⟨count, positive, most, length, _⟩ := made.fraction digits given
      have nonempty : digits ≠ [] := List.ne_nil_of_length_pos (by omega)
      have short : digits.take 6 = digits := List.take_of_length_le (by omega)
      simp only [Layout.fractionText, Layout.microsecond, given, readDecimals, short, true_or,
        nonempty, ne_eq, not_false_eq_true, true_and]
      by_cases all : digits.all Char.isDigit = true
      · rw [if_pos all, Option.some.injEq, eq_comm]
        simp [-List.all_eq_true, all]
      · rw [if_neg all]
        simp [-List.all_eq_true, all]

/-- The time of day of a layout is read if all its digits are `0` to `9`. -/
theorem readClock_clockText {fields : Nat × Nat × Nat × Nat} (made : layout.MadeOf isDecimal) :
    readClock layout.clockText = some fields ↔
      (layout.hour.all Char.isDigit = true ∧ layout.minute.all Char.isDigit = true
        ∧ layout.second.all Char.isDigit = true
        ∧ ∀ digits ∈ layout.fraction, digits.all Char.isDigit = true)
      ∧ fields = (digitsValue layout.hour, digitsValue layout.minute, digitsValue layout.second,
          layout.microsecond) := by
  rw [Layout.clockText, readClock, takeDigits_bind_eq_some_iff made.hour]
  show _ ∧ (takeDigits 2 (layout.minute ++ _) >>= _) = _ ↔ _
  rw [takeDigits_bind_eq_some_iff made.minute]
  show _ ∧ _ ∧ (takeDigits 2 (layout.second ++ _) >>= _) = _ ↔ _
  rw [takeDigits_bind_eq_some_iff made.second]
  simp only [bind, Option.bind_eq_some_iff, readDecimals_fractionText made, and_assoc,
    exists_and_left, exists_eq_left, Option.some.injEq, @eq_comm _ fields]

/-- Hours and minutes of an offset are read if they are digits `0` to `9` and nothing follows. -/
theorem readClock_hours {hours minutes ending : List Char} {fields : Nat × Nat × Nat × Nat}
    (hourRun : IsRun isDecimal 2 hours) (minuteRun : IsRun isDecimal 2 minutes)
    (ends : ending = [] ∨ ending = ['\n']) :
    readClock (hours ++ ':' :: (minutes ++ ending)) = some fields ↔
      (hours.all Char.isDigit = true ∧ minutes.all Char.isDigit = true ∧ ending = [])
        ∧ fields = (digitsValue hours, digitsValue minutes, 0, 0) := by
  rw [readClock, takeDigits_bind_eq_some_iff hourRun]
  show _ ∧ (takeDigits 2 (minutes ++ _) >>= _) = _ ↔ _
  rw [takeDigits_bind_eq_some_iff minuteRun]
  rcases ends with rfl | rfl
  · simp only [and_true, and_assoc, Option.some.injEq, @eq_comm _ fields]
  · simp

/-- After a sign stands the size of an offset, as a time of day. -/
theorem readZone_cons_eq_some_iff {sign : Char} {rest : List Char} {offset : Option Offset}
    (signed : sign ≠ 'Z') : readZone (sign :: rest) = some offset ↔
      ∃ hours minutes seconds microseconds,
        readClock rest = some (hours, minutes, seconds, microseconds) ∧ ∃ known : Offset,
          known.microseconds = (if sign = '-' then
            -((((hours * 60 + minutes) * 60 + seconds) * 1000000 + microseconds : Nat) : Int)
          else (((hours * 60 + minutes) * 60 + seconds) * 1000000 + microseconds : Nat))
            ∧ offset = some known := by
  unfold readZone
  split
  · next nothing => cases nothing
  · next utc => exact absurd (List.cons.inj utc).1 signed
  · next parts =>
      cases parts
      simp only [bind, Option.bind_eq_some_iff, offsetOf?_eq_some_iff, Prod.exists,
        Option.some.injEq, @eq_comm _ offset]

/-- An offset in hours and minutes is read if its digits are `0` to `9` and nothing follows it. -/
theorem readZone_offset {behind : Bool} {hours minutes ending : List Char} {offset : Option Offset}
    (hourRun : IsRun isDecimal 2 hours) (minuteRun : IsRun isDecimal 2 minutes)
    (ends : ending = [] ∨ ending = ['\n']) :
    readZone ((Zone.offset behind hours minutes).text ++ ending) = some offset ↔
      (hours.all Char.isDigit = true ∧ minutes.all Char.isDigit = true ∧ ending = [])
        ∧ ∃ known : Offset, offset = some known
          ∧ known.microseconds = (Zone.offset behind hours minutes).seconds * 1000000 := by
  have signed : (if behind then '-' else '+') ≠ 'Z' := by cases behind <;> decide
  have size : (if (if behind then '-' else '+') = '-' then
        -((((digitsValue hours * 60 + digitsValue minutes) * 60 + 0) * 1000000 + 0 : Nat) : Int)
      else (((digitsValue hours * 60 + digitsValue minutes) * 60 + 0) * 1000000 + 0 : Nat)) =
      (Zone.offset behind hours minutes).seconds * 1000000 := by
    cases behind <;> simp [Zone.seconds]
  rw [Zone.text, List.cons_append, List.append_assoc, List.cons_append,
    readZone_cons_eq_some_iff signed]
  constructor
  · rintro ⟨_, _, _, _, clock, known, made, rfl⟩
    obtain ⟨digits, fields⟩ := (readClock_hours hourRun minuteRun ends).1 clock
    cases fields
    exact ⟨digits, known, rfl, made.trans size⟩
  · rintro ⟨digits, known, rfl, microseconds⟩
    exact ⟨_, _, _, _, (readClock_hours hourRun minuteRun ends).2 ⟨digits, rfl⟩, known,
      microseconds.trans size.symm, rfl⟩

/-- The zone that ends a text is read if its digits are `0` to `9` and nothing follows it. -/
theorem readZone_spelledOut {zone : Zone} {ending : List Char} {offset : Option Offset}
    (made : zone.MadeOf isDecimal) (ends : ending = [] ∨ ending = ['\n']) :
    readZone (zone.spelledOut.text ++ ending) = some offset ↔
      (zone.MadeOf Char.isDigit ∧ ending = []) ∧ ∃ known : Offset, offset = some known
        ∧ known.microseconds = zone.seconds * 1000000 := by
  cases zone with
  | utc =>
      have zeros : (['0', '0'] : List Char).all Char.isDigit = true := by decide
      have run : IsRun isDecimal 2 ['0', '0'] := isRun_of_all rfl
      rw [Zone.spelledOut, readZone_offset run run ends]
      simp only [zeros, true_and, Zone.MadeOf]
      rfl
  | offset behind hours minutes =>
      obtain ⟨hourRun, minuteRun⟩ := made
      have digits : (Zone.offset behind hours minutes).MadeOf Char.isDigit ↔
          hours.all Char.isDigit = true ∧ minutes.all Char.isDigit = true := by
        rw [Zone.MadeOf, isRun_isDigit_iff hourRun, isRun_isDigit_iff minuteRun]
      have already : (Zone.offset behind hours minutes).spelledOut = .offset behind hours minutes := rfl
      rw [already, readZone_offset hourRun minuteRun ends, digits]
      simp only [and_assoc]

theorem startsZone_spelledOut (zone : Zone) (ending : List Char) :
    ∃ sign rest, zone.spelledOut.text ++ ending = sign :: rest ∧ startsZone sign = true := by
  cases zone with
  | utc => exact ⟨'+', _, rfl, rfl⟩
  | offset behind hours minutes => cases behind <;> exact ⟨_, _, rfl, rfl⟩

/-- A layout in the digits of any scripts is one in the digits `0` to `9` if its parts are made of
these. -/
theorem madeOf_isDigit_iff (made : layout.MadeOf isDecimal) : layout.MadeOf Char.isDigit ↔
    layout.year.all Char.isDigit = true ∧ layout.month.all Char.isDigit = true
      ∧ layout.day.all Char.isDigit = true ∧ layout.hour.all Char.isDigit = true
      ∧ layout.minute.all Char.isDigit = true ∧ layout.second.all Char.isDigit = true
      ∧ (∀ digits ∈ layout.fraction, digits.all Char.isDigit = true)
      ∧ layout.zone.MadeOf Char.isDigit := by
  constructor
  · rintro ⟨year, month, day, hour, minute, second, fraction, zone⟩
    refine ⟨(isRun_isDigit_iff made.year).1 year, (isRun_isDigit_iff made.month).1 month,
      (isRun_isDigit_iff made.day).1 day, (isRun_isDigit_iff made.hour).1 hour,
      (isRun_isDigit_iff made.minute).1 minute, (isRun_isDigit_iff made.second).1 second,
      fun digits given => ?_, zone⟩
    obtain ⟨count, _, _, run⟩ := fraction digits given
    exact List.all_eq_true.2 run.2
  · rintro ⟨year, month, day, hour, minute, second, fraction, zone⟩
    refine ⟨(isRun_isDigit_iff made.year).2 year, (isRun_isDigit_iff made.month).2 month,
      (isRun_isDigit_iff made.day).2 day, (isRun_isDigit_iff made.hour).2 hour,
      (isRun_isDigit_iff made.minute).2 minute, (isRun_isDigit_iff made.second).2 second,
      fun digits given => ?_, zone⟩
    obtain ⟨count, positive, most, run⟩ := made.fraction digits given
    exact ⟨count, positive, most, (isRun_isDigit_iff run).2 (fraction digits given)⟩

/-- A text of digits of any scripts, with its zone spelled out, is one of the extended form if its digits
are `0` to `9` and nothing follows it, and then it names the moment of its parts. -/
theorem readExtended_spelledOut {ending : List Char} {moment : Moment} (made : layout.MadeOf isDecimal)
    (ends : ending = [] ∨ ending = ['\n']) :
    readExtended (spellOutZone (layout.text ++ ending)) = some moment ↔
      (layout.MadeOf Char.isDigit ∧ ending = []) ∧ layout.Names moment := by
  have noMark : ∀ character ∈ ending, character ≠ 'Z' := by
    rcases ends with rfl | rfl <;> simp
  obtain ⟨sign, rest, zone, starts⟩ := startsZone_spelledOut layout.zone ending
  have clock : ∀ character ∈ layout.clockText, (!startsZone character) = true := by
    intro character member
    rw [startsZone_of_mem_clockText made character member]
    rfl
  have before : (layout.clockText ++ (layout.zone.spelledOut.text ++ ending)).takeWhile
      (!startsZone ·) = layout.clockText := by
    rw [List.takeWhile_append_of_pos clock, zone, List.takeWhile_cons, starts]
    simp
  have after : (layout.clockText ++ (layout.zone.spelledOut.text ++ ending)).dropWhile
      (!startsZone ·) = layout.zone.spelledOut.text ++ ending := by
    rw [List.dropWhile_append_of_pos clock, zone, List.dropWhile_cons, starts]
    simp
  rw [spellOutZone_text made noMark, readExtended, takeDigits_bind_eq_some_iff made.year]
  show _ ∧ (takeDigits 2 (layout.month ++ _) >>= _) = _ ↔ _
  rw [takeDigits_bind_eq_some_iff made.month]
  show _ ∧ _ ∧ (takeDigits 2 (layout.day ++ _) >>= _) = _ ↔ _
  rw [takeDigits_bind_eq_some_iff made.day, madeOf_isDigit_iff made]
  simp only [bind, Option.bind_eq_some_iff, Date.make?_eq_some_iff, before, after,
    readClock_clockText made, readZone_spelledOut made.zone ends, TimeOfDay.make?_eq_some_iff]
  constructor
  · rintro ⟨yearAll, monthAll, dayAll, date, ⟨year, month, day⟩, _,
      ⟨⟨hourAll, minuteAll, secondAll, fractionAll⟩, rfl⟩, _, ⟨⟨zone, nothing⟩, offset, rfl, size⟩, time,
      ⟨hour, minute, second, microsecond⟩, same⟩
    cases same
    exact ⟨⟨⟨yearAll, monthAll, dayAll, hourAll, minuteAll, secondAll, fractionAll, zone⟩, nothing⟩,
      year, month, day, hour, minute, second, microsecond, offset, rfl, size⟩
  · rintro ⟨⟨⟨yearAll, monthAll, dayAll, hourAll, minuteAll, secondAll, fractionAll, zone⟩, nothing⟩,
      year, month, day, hour, minute, second, microsecond, known⟩
    exact ⟨yearAll, monthAll, dayAll, moment.date, ⟨year, month, day⟩, _,
      ⟨⟨hourAll, minuteAll, secondAll, fractionAll⟩, rfl⟩, _, ⟨⟨zone, nothing⟩, known⟩, moment.time,
      ⟨hour, minute, second, microsecond⟩, rfl⟩

end Extended

/-! ### All texts -/

/-- The texts that pass both tests are the timestamps. -/
theorem spells_iff {text : List Char} {moment : Moment} : Spells text moment ↔
    MatchesPattern text ∧ readExtended (spellOutZone text) = some moment := by
  constructor
  · rintro ⟨layout, made, rfl, names⟩
    have decimal := made.mono fun _ => isDecimal_of_isDigit
    have read := (readExtended_spelledOut decimal (.inl rfl)).2 ⟨⟨made, rfl⟩, names⟩
    rw [List.append_nil] at read
    exact ⟨⟨layout, decimal, .inl rfl⟩, read⟩
  · rintro ⟨⟨layout, made, ends⟩, read⟩
    obtain ⟨ending, same, short⟩ : ∃ ending, text = layout.text ++ ending
        ∧ (ending = [] ∨ ending = ['\n']) := by
      rcases ends with same | same
      · exact ⟨[], by rw [same, List.append_nil], .inl rfl⟩
      · exact ⟨['\n'], same, .inr rfl⟩
    rw [same] at read
    obtain ⟨⟨inDigits, nothing⟩, names⟩ := (readExtended_spelledOut made short).1 read
    exact ⟨layout, inDigits, by rw [same, nothing, List.append_nil], names⟩

/-- A text is a timestamp exactly if it passes the pattern and is then one of the extended form. Any
other text is read as no moment. A timestamp is read as the moment in UTC that it names, and it is
refused as outside of the calendar if there is none in the years 1 to 9999. -/
theorem timestamps_are_read_as_spelled (text : String) :
    (∀ moment, Spells text.toList moment ↔
        MatchesPattern text.toList ∧ readExtended (spellOutZone text.toList) = some moment)
      ∧ ((∀ moment, ¬Spells text.toList moment) → (Value.text text).asMoment = .ok none)
      ∧ ∀ moment, Spells text.toList moment →
          (∀ inUtc : Moment, inUtc.Marks moment.instant →
            (Value.text text).asMoment = .ok (some inUtc))
            ∧ ((∀ inUtc : Moment, ¬inUtc.Marks moment.instant) →
              (Value.text text).asMoment = .error .outsideCalendar) := by
  refine ⟨fun moment => spells_iff, fun unspelled => ?_, fun moment spelled => ?_⟩
  · have unread : readMoment text.toList = none := by
      rw [Option.eq_none_iff_forall_ne_some]
      exact fun moment => mt readMoment_eq_some_iff.1 (unspelled moment)
    rw [Value.asMoment, read, unread]
  · rw [Value.asMoment, read, readMoment_eq_some_iff.2 spelled]
    constructor
    · intro inUtc marks
      dsimp only
      rw [Moment.utc?_eq_some_iff.2 marks]
    · intro unmarked
      have outside := not_exists.2 unmarked
      rw [Moment.exists_marks_iff] at outside
      dsimp only
      rw [Moment.utc?_eq_none_iff.2 outside]

/-- A quarter to midnight at the end of a year, half an hour behind UTC. -/
def yearEnd (year : List Char) : Layout :=
  ⟨year, ['1', '2'], ['3', '1'], ['2', '3'], ['4', '5'], ['0', '0'], some ['5'],
    .offset true ['0', '0'] ['3', '0']⟩

theorem year_ends_are_read :
    (Spells "2024-12-31T23:45:00.5-00:30".toList
        ⟨⟨2024, 12, 31, by decide⟩, ⟨23, 45, 0, 500000, by decide⟩, some ⟨-1800000000, by decide⟩⟩
      ∧ (Value.text "2024-12-31T23:45:00.5-00:30").asMoment =
        .ok (some ⟨⟨2025, 1, 1, by decide⟩, ⟨0, 15, 0, 500000, by decide⟩, some .zero⟩))
      ∧ (Spells "9999-12-31T23:45:00.5-00:30".toList
          ⟨⟨9999, 12, 31, by decide⟩, ⟨23, 45, 0, 500000, by decide⟩, some ⟨-1800000000, by decide⟩⟩
        ∧ (Value.text "9999-12-31T23:45:00.5-00:30").asMoment = .error .outsideCalendar)
      ∧ (∀ moment, ¬Spells "2024-12-31T23:45:00.5-00:30\n".toList moment)
      ∧ (Value.text "2024-12-31T23:45:00.5-00:30\n").asMoment = .ok none := by
  have made : ∀ {year : List Char}, IsRun Char.isDigit 4 year → (yearEnd year).MadeOf Char.isDigit := by
    intro year run
    refine ⟨run, isRun_of_all rfl, isRun_of_all rfl, isRun_of_all rfl, isRun_of_all rfl,
      isRun_of_all rfl, ?_, isRun_of_all rfl, isRun_of_all rfl⟩
    rintro digits ⟨⟩
    exact ⟨1, by decide, by decide, isRun_of_all rfl⟩
  have inside : Spells "2024-12-31T23:45:00.5-00:30".toList
      ⟨⟨2024, 12, 31, by decide⟩, ⟨23, 45, 0, 500000, by decide⟩, some ⟨-1800000000, by decide⟩⟩ :=
    ⟨yearEnd ['2', '0', '2', '4'], made (isRun_of_all rfl), rfl, rfl, rfl, rfl, rfl, rfl, rfl, rfl, _, rfl,
      rfl⟩
  have last : Spells "9999-12-31T23:45:00.5-00:30".toList
      ⟨⟨9999, 12, 31, by decide⟩, ⟨23, 45, 0, 500000, by decide⟩, some ⟨-1800000000, by decide⟩⟩ :=
    ⟨yearEnd ['9', '9', '9', '9'], made (isRun_of_all rfl), rfl, rfl, rfl, rfl, rfl, rfl, rfl, rfl, _, rfl,
      rfl⟩
  have unspelled : ∀ moment, ¬Spells "2024-12-31T23:45:00.5-00:30\n".toList moment := by
    intro moment spelled
    have unread : readMoment "2024-12-31T23:45:00.5-00:30\n".toList = none := by decide +kernel
    rw [readMoment_eq_some_iff.2 spelled] at unread
    cases unread
  obtain ⟨_, _, insideRead⟩ := timestamps_are_read_as_spelled "2024-12-31T23:45:00.5-00:30"
  obtain ⟨_, _, lastRead⟩ := timestamps_are_read_as_spelled "9999-12-31T23:45:00.5-00:30"
  obtain ⟨_, noRead, _⟩ := timestamps_are_read_as_spelled "2024-12-31T23:45:00.5-00:30\n"
  refine ⟨⟨inside, (insideRead _ inside).1 _ ⟨rfl, by decide +kernel⟩⟩, ⟨last, ?_⟩, unspelled,
    noRead unspelled⟩
  refine (lastRead _ last).2 (not_exists.1 ?_)
  rw [Moment.exists_marks_iff]
  decide +kernel

end DocumentStore.Calendar.Timestamp
