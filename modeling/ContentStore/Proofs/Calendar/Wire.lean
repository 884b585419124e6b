import ContentStore.Proofs.Calendar.Civil
import ContentStore.Proofs.Calendar.Reading

/-!
Contract: instants in the wire form, as they are written and read.

Owns:
- that the wire forms of two instants are the same exactly if they show the same second;
- `Fields.told`, the fields that the wire form of a local time gives under any
  weekday, and that these are read from it;
- that they determine the second that an instant shows if the weekday is the right one,
  and are refused otherwise;
- `wire_form_round_trips`, all of this for texts.

Does not own: other patterns.
-/

namespace ContentStore.Calendar

open Text.Decimal (not_isBlank_of_isDigit pad)

/-! ## Local times -/

namespace Instant

variable {here : Instant}

private theorem exists_date (here : Instant) : here.date.Exists :=
  Date.exists_ofDayNumber _

private theorem hour_lt (here : Instant) : here.hour < 24 := by
  have positive : (0 : Int) < 86400 := by decide
  have below := Int.emod_lt_of_pos here.seconds positive
  unfold hour secondOfDay
  omega

private theorem minute_lt (here : Instant) : here.minute < 60 :=
  Nat.mod_lt _ (by decide)

/-- An instant shows its own second, or is a leap second and shows second 60, or the
next second if it is out of place. -/
theorem Representable.shown_cases (representable : here.Representable) :
    (here.shown = ⟨here.seconds, 0⟩ ∧ here.second = here.secondOfDay % 60 ∧ here.second < 60) ∨
      (here.shown = ⟨here.seconds, 1000000000⟩ ∧ here.second = 60 ∧
        here.secondOfDay % 60 = 59) ∨
      (here.shown = ⟨here.seconds + 1, 0⟩ ∧ here.second = here.secondOfDay % 60 + 1 ∧
        here.second < 60) := by
  have bounded : here.nanos < 2000000000 := representable.2
  have whole : here.nanos / 1000000000 = 0 ∨ here.nanos / 1000000000 = 1 := by omega
  unfold shown wholeSecond second
  rcases whole with plain | leap
  · left
    rw [plain, Int.natCast_zero, Int.add_zero, Nat.zero_mul, ite_self]
    exact ⟨rfl, rfl, by omega⟩
  · right
    rw [leap]
    by_cases last : here.secondOfDay % 60 = 59
    · exact Or.inl ⟨if_pos last, by rw [last], last⟩
    · rw [if_neg last]
      exact Or.inr ⟨rfl, rfl, by omega⟩

private theorem Representable.second_le (representable : here.Representable) :
    here.second ≤ 60 := by
  rcases representable.shown_cases with ⟨_, _, below⟩ | ⟨_, isLeap, _⟩ | ⟨_, _, below⟩ <;> omega

/-- A leap second in place is shown as one, and any other instant as its second. -/
theorem shown_eq_wholeSecond_iff (representable : here.Representable) :
    here.shown = here.wholeSecond ↔ here.LeapInPlace := by
  have bounded : here.nanos < 2000000000 := representable.2
  unfold shown LeapInPlace
  by_cases last : here.secondOfDay % 60 = 59
  · rw [if_pos last]
    exact iff_of_true rfl (Or.inr last)
  · rw [if_neg last]
    unfold wholeSecond
    simp only [Instant.mk.injEq, last, or_false]
    omega

/-- The second that is shown is of the same minute. -/
theorem Representable.minute_shown (representable : here.Representable) :
    here.shown.seconds / 60 = here.seconds / 60 ∧ here.shown.second = here.second := by
  have bounded : here.nanos < 2000000000 := representable.2
  rcases representable.shown_cases with ⟨shows, isSecond, known⟩ | ⟨shows, isSecond, known⟩ |
    ⟨shows, isSecond, known⟩ <;>
  · rw [shows]
    unfold second secondOfDay at *
    refine ⟨?_, ?_⟩ <;>
    dsimp only at * <;>
    omega

private theorem Representable.date_shown (representable : here.Representable) :
    here.shown.date = here.date := by
  obtain ⟨sameMinute, _⟩ := representable.minute_shown
  unfold date
  rw [show here.shown.seconds / 86400 = here.seconds / 86400 by omega]

private theorem Representable.hour_shown (representable : here.Representable) :
    here.shown.hour = here.hour := by
  obtain ⟨sameMinute, _⟩ := representable.minute_shown
  unfold hour secondOfDay
  omega

/-- The wire form is the one of the second that is shown. -/
theorem wire_shown (representable : here.Representable) : here.shown.wire = here.wire := by
  obtain ⟨sameMinute, sameSecond⟩ := representable.minute_shown
  have sameMinuteOfHour : here.shown.minute = here.minute := by
    unfold minute secondOfDay
    omega
  unfold wire wireFields
  rw [representable.date_shown, representable.hour_shown, sameMinuteOfHour, sameSecond]

/-- A text in the wire form behind its weekday. -/
def afterWeekday (here : Instant) (minutes : Int) : List Char :=
  [','] ++ ' ' :: (pad 2 here.date.day ++ ' ' :: (monthAbbreviation here.date.month ++
    ' ' :: (writeYear here.date.year ++ ' ' :: (pad 2 here.hour ++ ([':'] ++
      (pad 2 here.minute ++ ([':'] ++ (pad 2 here.second ++ ' ' :: writeOffset minutes))))))))

/-- An instant as it is seen some minutes east of universal time. -/
def shifted (instant : Instant) (minutes : Int) : Instant :=
  ⟨instant.seconds + 60 * minutes, instant.nanos⟩

private theorem shown_shifted (instant : Instant) (minutes : Int) :
    (instant.shifted minutes).shown = instant.shown.shifted minutes := by
  have sameSecond : (instant.shifted minutes).secondOfDay % 60 = instant.secondOfDay % 60 := by
    unfold secondOfDay shifted
    dsimp only
    omega
  unfold shown
  rw [sameSecond]
  split
  · rfl
  · unfold shifted
    simp only [Int.add_right_comm]

private theorem wireWithOffset_eq (instant : Instant) (minutes : Int) :
    instant.wireWithOffset minutes =
      String.ofList (weekdayAbbreviation (instant.shifted minutes).date.weekday ++
        (instant.shifted minutes).afterWeekday minutes) := by
  unfold wireWithOffset wireFields afterWeekday shifted
  simp only [List.append_assoc, List.cons_append, List.nil_append]

/-- Universal time is the local time without an offset. -/
theorem wire_eq_wireWithOffset (instant : Instant) : instant.wire = instant.wireWithOffset 0 := by
  have zone : " +0000".toList = [' '] ++ writeOffset 0 := by
    simp [writeOffset, pad, Text.Decimal.write, Text.Decimal.digit]
  unfold wire wireWithOffset
  simp only [Int.mul_zero, Int.add_zero, zone, List.append_assoc]

end Instant

/-! ## Reading the text -/

/-- The fields that a local time gives under a weekday. -/
def Fields.told (weekday : Weekday) (here : Instant) (minutes : Int) : Fields :=
  { Fields.empty with
    year := some here.date.year
    month := some here.date.month
    weekday := some weekday
    day := some here.date.day
    afterNoon := some (decide (12 ≤ here.hour))
    hourOfHalf := some (here.hour % 12)
    minute := some here.minute
    second := some here.second
    offset := some (60 * minutes) }

namespace Reading

variable {here : Instant} {minutes : Int}

private theorem not_isBlank_pad {width number : Nat} {rest : List Char} :
    ∀ symbol ∈ (pad width number ++ rest).head?, Text.isBlank symbol = false := by
  obtain ⟨first, more, same, digit⟩ := exists_pad_cons width number
  rw [same]
  intro symbol begins
  rw [← Option.some.inj begins]
  exact not_isBlank_of_isDigit digit

private theorem not_isBlank_writeYear {year : Int} {rest : List Char} :
    ∀ symbol ∈ (writeYear year ++ rest).head?, Text.isBlank symbol = false := by
  unfold writeYear
  split
  · exact not_isBlank_pad
  · intro symbol begins
    rw [← Option.some.inj begins]
    split <;> decide

private theorem not_isBlank_monthAbbreviation {month : Nat} (low : 1 ≤ month) (high : month ≤ 12)
    {rest : List Char} :
    ∀ symbol ∈ (monthAbbreviation month ++ rest).head?, Text.isBlank symbol = false := by
  have all : ∀ index < 12, ∃ first more, monthAbbreviation (index + 1) = first :: more ∧
      Text.isBlank first = false := by
    intro index small
    have visible : ∀ index < 12, monthAbbreviation (index + 1) ≠ [] ∧
        ∀ symbol ∈ monthAbbreviation (index + 1), Text.isBlank symbol = false := by decide
    obtain ⟨some_letter, letters⟩ := visible index small
    obtain ⟨first, more, same⟩ := List.exists_cons_of_ne_nil some_letter
    exact ⟨first, more, same, letters first (same ▸ List.mem_cons_self)⟩
  obtain ⟨first, more, same, letter⟩ := all (month - 1) (by omega)
  rw [Nat.sub_add_cancel low] at same
  rw [same]
  intro symbol begins
  rw [← Option.some.inj begins]
  exact letter

private theorem not_isBlank_writeOffset {minutes : Int} {rest : List Char} :
    ∀ symbol ∈ (Instant.writeOffset minutes ++ rest).head?, Text.isBlank symbol = false := by
  unfold Instant.writeOffset
  intro symbol begins
  rw [← Option.some.inj begins]
  split <;> decide

private theorem foldlM_cons_of_ok {progress after : Progress} {item : Item} {items : Pattern}
    (first : step progress item = .ok after) :
    (item :: items).foldlM step progress = items.foldlM step after := by
  rw [List.foldlM_cons, first]
  rfl

/-- A text in the wire form is read into the fields that it tells, whatever its
weekday is. -/
theorem readItems_wire (representable : here.Representable) (small : minutes.natAbs < 1440)
    (weekday : Weekday) :
    readItems wirePattern
      (String.ofList (weekdayAbbreviation weekday ++ here.afterWeekday minutes)) =
        .ok (Fields.told weekday here minutes) := by
  obtain ⟨monthLow, monthHigh, dayLow, dayHigh, _⟩ :=
    Date.ofMonthDay?_eq here.exists_date representable.1
  have inside : -2147483648 ≤ here.date.year ∧ here.date.year ≤ 2147483647 := by
    obtain ⟨low, high⟩ := representable.1
    omega
  have notDigit : ∀ rest : List Char, ∀ symbol ∈ (' ' :: rest).head?,
      Text.Decimal.isDigit symbol = false := by
    intro rest symbol begins
    rw [← Option.some.inj begins]
    decide
  unfold readItems wirePattern Instant.afterWeekday
  rw [String.toList_ofList, ← List.append_nil (Instant.writeOffset minutes)]
  rw [foldlM_cons_of_ok (step_weekday rfl weekday _), foldlM_cons_of_ok (step_literal _ _ _),
    foldlM_cons_of_ok (step_space not_isBlank_pad _),
    foldlM_cons_of_ok (step_day rfl ⟨dayLow, dayHigh⟩ _),
    foldlM_cons_of_ok (step_space (not_isBlank_monthAbbreviation monthLow monthHigh) _),
    foldlM_cons_of_ok (step_month rfl monthLow monthHigh _),
    foldlM_cons_of_ok (step_space not_isBlank_writeYear _),
    foldlM_cons_of_ok (step_year rfl inside (notDigit _)),
    foldlM_cons_of_ok (step_space not_isBlank_pad _),
    foldlM_cons_of_ok (step_hour ⟨rfl, rfl⟩ here.hour_lt _),
    foldlM_cons_of_ok (step_literal _ _ _),
    foldlM_cons_of_ok (step_minute rfl here.minute_lt _),
    foldlM_cons_of_ok (step_literal _ _ _),
    foldlM_cons_of_ok (step_second rfl representable.second_le _),
    foldlM_cons_of_ok (step_space not_isBlank_writeOffset _),
    foldlM_cons_of_ok (step_offset rfl small [])]
  rfl

end Reading

/-! ## Determining the instant -/

namespace Fields

variable {here : Instant} {minutes : Int} {weekday : Weekday}

/-- The date is the one that is told, unless the weekday is not its own. -/
theorem date_told (representable : here.Representable) :
    (told weekday here minutes).date =
      if weekday = here.date.weekday then .ok here.date else .error .impossible := by
  obtain ⟨_, _, _, _, found⟩ := Date.ofMonthDay?_eq here.exists_date representable.1
  have candidate : (told weekday here minutes).candidate (some here.date.year) none =
      .ok (here.date, decide (weekday = here.date.weekday)) := by
    simp only [Fields.candidate, told, empty, found, existing, admitsIsoWeek, admitsOrdinal,
      admitsCentury, admits, Option.getD_none, Option.getD_some, Option.map_none, Option.isNone_none,
      decide_true, Bool.and_true, Bool.true_and, ite_self]
    rfl
  have years : combineYear (told weekday here minutes).year (told weekday here minutes).yearCentury
      (told weekday here minutes).yearOfCentury = .ok (some here.date.year) := rfl
  have isoYears : combineYear (told weekday here minutes).isoYear none
      (told weekday here minutes).isoYearOfCentury = .ok none := rfl
  have quarters : admits (told weekday here minutes).quarter here.date.quarter = true :=
    decide_eq_true rfl
  unfold Fields.date
  rw [years, isoYears]
  simp only [bind, Except.bind, candidate, quarters, Bool.and_true, decide_eq_true_eq]
  rfl

/-- The time of day is the one of the second that is shown; second 60 is the leap
second after second 59. -/
theorem timeOfDay_told (representable : here.Representable) :
    (told weekday here minutes).timeOfDay = .ok (here.shown.secondOfDay, here.shown.nanos) := by
  have half : (if decide (12 ≤ here.hour) = true then 12 else 0) + here.hour % 12 = here.hour := by
    have below := here.hour_lt
    split <;> rename_i side <;> simp only [decide_eq_true_eq] at side <;> omega
  have whole : here.hour * 3600 + here.minute * 60 = here.secondOfDay / 60 * 60 := by
    unfold Instant.hour Instant.minute
    omega
  -- below second 60, what is told is the second that is shown
  have ofPlain (plain : here.second < 60) : (told weekday here minutes).timeOfDay =
      .ok (here.secondOfDay / 60 * 60 + here.second, 0) := by
    unfold Fields.timeOfDay
    simp only [told, empty, half, whole]
    split
    · rename_i leaps
      rw [Option.some.inj leaps] at plain
      exact absurd plain (by decide)
    · rename_i second _ isTold
      rw [← Option.some.inj isTold]
      rfl
    · rename_i untold
      exact absurd untold (by simp)
  rcases representable.shown_cases with ⟨shows, isSecond, below⟩ | ⟨shows, isSecond, last⟩ |
    ⟨shows, isSecond, below⟩
  · rw [ofPlain below, isSecond, shows, Nat.div_add_mod']
    rfl
  · unfold Fields.timeOfDay
    simp only [told, empty, half, whole, isSecond, shows]
    rw [← last, Nat.div_add_mod']
    rfl
  · rw [ofPlain below, isSecond, shows]
    have next : here.secondOfDay / 60 * 60 + (here.secondOfDay % 60 + 1) =
        Instant.secondOfDay ⟨here.seconds + 1, 0⟩ := by
      rw [isSecond] at below
      unfold Instant.secondOfDay at *
      dsimp only
      omega
    rw [next]

private theorem localTime_told (representable : here.Representable) (offset : Int) :
    (told weekday here minutes).localTime offset =
      if weekday = here.date.weekday then .ok here.shown else .error .impossible := by
  have combined : combine here.date (here.shown.secondOfDay, here.shown.nanos) = here.shown := by
    have isDay : here.date.dayNumber = here.seconds / 86400 := Date.dayNumber_ofDayNumber _
    obtain ⟨sameMinute, _⟩ := representable.minute_shown
    have seconds : here.seconds / 86400 * 86400 + (here.shown.secondOfDay : Int) =
        here.shown.seconds := by
      unfold Instant.secondOfDay
      omega
    unfold combine
    rw [isDay, seconds]
  have untold : (told weekday here minutes).timestamp = none := rfl
  unfold localTime
  rw [date_told representable, timeOfDay_told representable, untold]
  by_cases own : weekday = here.date.weekday
  · simp only [if_pos own, combined]
  · simp only [if_neg own]

/-- The fields that are told determine the instant to the second, if the weekday is
the right one. -/
theorem instant_told {instant : Instant} (universal : instant.Representable)
    (small : minutes.natAbs < 1440) (representable : (instant.shifted minutes).Representable) :
    (told weekday (instant.shifted minutes) minutes).instant =
      if weekday = (instant.shifted minutes).date.weekday then .ok instant.shown
      else .error .impossible := by
  have offset : (told weekday (instant.shifted minutes) minutes).offset = some (60 * minutes) := rfl
  have near : ¬ (60 * minutes ≤ -86400 ∨ 86400 ≤ 60 * minutes) := by omega
  have back : (⟨(instant.shown.shifted minutes).seconds - 60 * minutes,
      (instant.shown.shifted minutes).nanos⟩ : Instant) = instant.shown := by
    unfold Instant.shifted
    simp only [Int.add_sub_cancel]
  have inRange : Date.YearInRange instant.shown.date.year := by
    rw [universal.date_shown]
    exact universal.1
  unfold Fields.instant
  simp only [offset, localTime_told representable, Instant.shown_shifted]
  by_cases own : weekday = (instant.shifted minutes).date.weekday
  · simp only [if_pos own, pure, Except.pure, bind, Except.bind, if_neg near, back, if_pos inRange]
  · simp only [if_neg own, pure, Except.pure, bind, Except.bind]

end Fields

/-! ## Texts -/

namespace Instant

/-- A text in the wire form with the name of another weekday. -/
def renamed (weekday : Weekday) (text : String) : String :=
  String.ofList (weekdayAbbreviation weekday ++ text.toList.drop 3)

variable {instant : Instant} {minutes : Int}

private theorem renamed_wireWithOffset (instant : Instant) (minutes : Int) (weekday : Weekday) :
    renamed weekday (instant.wireWithOffset minutes) =
      String.ofList (weekdayAbbreviation weekday ++
        (instant.shifted minutes).afterWeekday minutes) := by
  unfold renamed
  rw [wireWithOffset_eq, String.toList_ofList,
    ← Reading.length_weekdayAbbreviation (instant.shifted minutes).date.weekday, List.drop_left]

/-- A text in the wire form names its instant under its own weekday, and none under
another one. -/
theorem parseWire_renamed (universal : instant.Representable) (small : minutes.natAbs < 1440)
    (representable : (instant.shifted minutes).Representable) (weekday : Weekday) :
    parseWire (renamed weekday (instant.wireWithOffset minutes)) =
      if weekday = (instant.shifted minutes).date.weekday then .ok instant.shown
      else .error (.invalidDate (renamed weekday (instant.wireWithOffset minutes)) none
        .impossible) := by
  rw [renamed_wireWithOffset]
  unfold parseWire
  rw [Reading.readItems_wire representable small weekday]
  simp only [bind, Except.bind, Fields.instant_told universal small representable]
  by_cases own : weekday = (instant.shifted minutes).date.weekday
  · simp only [if_pos own]
  · simp only [if_neg own]

private theorem parseWire_wireWithOffset (universal : instant.Representable)
    (small : minutes.natAbs < 1440) (representable : (instant.shifted minutes).Representable) :
    parseWire (instant.wireWithOffset minutes) = .ok instant.shown := by
  have own := parseWire_renamed universal small representable
    (instant.shifted minutes).date.weekday
  rw [if_pos rfl, renamed_wireWithOffset, ← wireWithOffset_eq] at own
  exact own

private theorem shifted_zero (instant : Instant) : instant.shifted 0 = instant := by
  unfold shifted
  rw [Int.mul_zero, Int.add_zero]

theorem parseWire_wire (representable : instant.Representable) :
    parseWire instant.wire = .ok instant.shown := by
  rw [wire_eq_wireWithOffset]
  apply parseWire_wireWithOffset representable (by decide)
  rw [shifted_zero]
  exact representable

/-- Instants have the same wire form if and only if they show the same second. -/
theorem wire_eq_iff {other : Instant} (representable : instant.Representable)
    (otherRepresentable : other.Representable) :
    instant.wire = other.wire ↔ instant.shown = other.shown := by
  constructor
  · intro same
    have read := parseWire_wire representable
    rw [same, parseWire_wire otherRepresentable] at read
    exact (Except.ok.inj read).symm
  · intro same
    rw [← wire_shown representable, same, wire_shown otherRepresentable]

/-- Without leap seconds out of place, the same second is shown by the instants that have
the same number of whole seconds. -/
theorem shown_eq_iff_wholeSecond_eq {other : Instant} (representable : instant.Representable)
    (otherRepresentable : other.Representable) (inPlace : instant.LeapInPlace)
    (otherInPlace : other.LeapInPlace) :
    instant.shown = other.shown ↔ instant.wholeSecond = other.wholeSecond := by
  rw [(shown_eq_wholeSecond_iff representable).mpr inPlace,
    (shown_eq_wholeSecond_iff otherRepresentable).mpr otherInPlace]

/-- From its wire form in every local time whose offset is a whole number of minutes
and less than a day, an instant is read back as the second that it shows.  That is the
instant without the fraction of its second, a leap second staying one, exactly if it is
no leap second out of place.  In universal time the instant that is read has the same
wire form again.  Under the name of any other weekday the texts are refused. -/
theorem wire_form_round_trips (instant : Instant) (universal : instant.Representable) :
    (∀ minutes : Int, -(24 * 60) < minutes → minutes < 24 * 60 →
      (instant.shifted minutes).Representable →
        parseWire (instant.wireWithOffset minutes) = .ok instant.shown ∧
        ∀ weekday, weekday ≠ (instant.shifted minutes).date.weekday →
          parseWire (renamed weekday (instant.wireWithOffset minutes)) =
            .error (.invalidDate (renamed weekday (instant.wireWithOffset minutes)) none
              .impossible)) ∧
    (instant.shown = instant.wholeSecond ↔ instant.LeapInPlace) ∧
    parseWire instant.wire = .ok instant.shown ∧
    instant.shown.wire = instant.wire ∧
    ∀ weekday, weekday ≠ instant.date.weekday →
      parseWire (renamed weekday instant.wire) =
        .error (.invalidDate (renamed weekday instant.wire) none .impossible) := by
  refine ⟨?_, shown_eq_wholeSecond_iff universal, parseWire_wire universal,
    wire_shown universal, ?_⟩
  · intro minutes west east representable
    have small : minutes.natAbs < 1440 := by omega
    refine ⟨parseWire_wireWithOffset universal small representable, ?_⟩
    intro weekday other
    rw [parseWire_renamed universal small representable, if_neg other]
  · intro weekday other
    have representable : (instant.shifted 0).Representable := by
      rw [shifted_zero]
      exact universal
    have refused := parseWire_renamed universal (by decide) representable weekday
    rw [shifted_zero, if_neg other, ← wire_eq_wireWithOffset] at refused
    exact refused

/-- The leap second at the end of 2016 falls into 2017 an hour and a half farther
east, where it is a Sunday, and the first second of all is in a year before 0. -/
theorem leap_second_and_first_second_round_trip :
    let leap : Instant := ⟨1483228799, 1500000000⟩
    let first : Instant := ⟨-8334601228800, 999999999⟩
    leap.Representable ∧ (leap.shifted 90).Representable ∧ first.Representable ∧
    leap.wireWithOffset 90 = "Sun, 01 Jan 2017 01:29:60 +0130" ∧
    parseWire (leap.wireWithOffset 90) = .ok ⟨1483228799, 1000000000⟩ ∧
    renamed .saturday (leap.wireWithOffset 90) = "Sat, 01 Jan 2017 01:29:60 +0130" ∧
    parseWire (renamed .saturday (leap.wireWithOffset 90)) =
      .error (.invalidDate "Sat, 01 Jan 2017 01:29:60 +0130" none .impossible) ∧
    first.wire = "Thu, 01 Jan -262143 00:00:00 +0000" ∧
    parseWire first.wire = .ok ⟨-8334601228800, 0⟩ := by
  intro leap first
  have leapInRange : leap.Representable := ⟨by decide, by decide⟩
  have leapEast : (leap.shifted 90).Representable := ⟨by decide, by decide⟩
  have firstInRange : first.Representable := ⟨by decide, by decide⟩
  have written : leap.wireWithOffset 90 = "Sun, 01 Jan 2017 01:29:60 +0130" := by decide +kernel
  have otherName : renamed .saturday "Sun, 01 Jan 2017 01:29:60 +0130" =
      "Sat, 01 Jan 2017 01:29:60 +0130" := by decide +kernel
  have firstWritten : first.wire = "Thu, 01 Jan -262143 00:00:00 +0000" := by decide +kernel
  obtain ⟨east, _⟩ := wire_form_round_trips leap leapInRange
  obtain ⟨own, others⟩ := east 90 (by decide) (by decide) leapEast
  have refused := others .saturday (by decide)
  obtain ⟨_, _, universal, _⟩ := wire_form_round_trips first firstInRange
  have leapSecond : leap.shown = ⟨1483228799, 1000000000⟩ := by decide
  have firstSecond : first.shown = ⟨-8334601228800, 0⟩ := by decide
  rw [written, leapSecond] at own
  rw [firstSecond] at universal
  rw [written, otherName] at refused
  rw [written, otherName]
  exact ⟨leapInRange, leapEast, firstInRange, rfl, own, rfl, refused, firstWritten, universal⟩

/-- A leap second after second 29 is written as second 30, and read as this one. -/
theorem leap_second_out_of_place_is_lost :
    let leap : Instant := ⟨1175024189, 1500000000⟩
    leap.Representable ∧ leap.wholeSecond = ⟨1175024189, 1000000000⟩ ∧
    leap.wire = "Tue, 27 Mar 2007 19:36:30 +0000" ∧
    parseWire leap.wire = .ok ⟨1175024190, 0⟩ ∧
    parseWire leap.wire ≠ .ok leap.wholeSecond := by
  intro leap
  have representable : leap.Representable := ⟨by decide, by decide⟩
  have read := parseWire_wire representable
  have next : leap.shown = ⟨1175024190, 0⟩ := by decide
  rw [next] at read
  refine ⟨representable, by decide, by decide +kernel, read, ?_⟩
  rw [read]
  decide

end Instant

end ContentStore.Calendar
