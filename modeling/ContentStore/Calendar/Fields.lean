import ContentStore.Calendar.Fault
import ContentStore.Calendar.Instant
import ContentStore.Calendar.Pattern

/-!
Contract: the fields that a written date gives, and the instant they determine.

Owns:
- `Fields`, every field optional;
- `set`, which refuses numbers out of a field's range and a second value that
  differs from the first;
- `date`, `timeOfDay`, `localSecond` and `instant`, which combine the fields
  and refuse fields that contradict one another.

Does not own: reading the fields from text.
-/

namespace ContentStore.Calendar

/-- The fields of a written date, as far as they are known. -/
structure Fields where
  year : Option Int
  yearCentury : Option Int
  yearOfCentury : Option Int
  isoYear : Option Int
  isoYearOfCentury : Option Int
  quarter : Option Nat
  month : Option Nat
  weekFromSunday : Option Nat
  weekFromMonday : Option Nat
  isoWeek : Option Nat
  weekday : Option Weekday
  ordinal : Option Nat
  day : Option Nat
  afterNoon : Option Bool
  /-- The hour from 0 to 11 since midnight or noon. -/
  hourOfHalf : Option Nat
  minute : Option Nat
  second : Option Nat
  nanosecond : Option Nat
  timestamp : Option Int
  /-- Seconds east of universal time. -/
  offset : Option Int
deriving DecidableEq, Repr

namespace Fields

def empty : Fields :=
  ⟨none, none, none, none, none, none, none, none, none, none, none, none, none, none, none,
    none, none, none, none, none⟩

/-- A field's new value, unless it had another one. -/
def agree {α : Type} [DecidableEq α] (old : Option α) (new : α) :
    Except DateFault (Option α) :=
  match old with
  | some known => if known = new then .ok (some new) else .error .impossible
  | none => .ok (some new)

def within (low high : Int) (number : Int) : Except DateFault Nat :=
  if low ≤ number ∧ number ≤ high then .ok number.toNat else .error .outOfRange

def setWeekday (fields : Fields) (weekday : Weekday) : Except DateFault Fields := do
  return { fields with weekday := ← agree fields.weekday weekday }

def setMonth (fields : Fields) (number : Int) : Except DateFault Fields := do
  return { fields with month := ← agree fields.month (← within 1 12 number) }

def setAfterNoon (fields : Fields) (value : Bool) : Except DateFault Fields := do
  return { fields with afterNoon := ← agree fields.afterNoon value }

def setNanosecond (fields : Fields) (number : Int) : Except DateFault Fields := do
  return { fields with nanosecond := ← agree fields.nanosecond (← within 0 999999999 number) }

def setOffset (fields : Fields) (seconds : Int) : Except DateFault Fields := do
  return { fields with offset := ← agree fields.offset seconds }

/-- A year that fits 32 bits. -/
def checkedYear (number : Int) : Except DateFault Int :=
  if -2147483648 ≤ number ∧ number ≤ 2147483647 then .ok number else .error .outOfRange

def setHour (fields : Fields) (number : Int) : Except DateFault Fields := do
  let hour ← within 0 23 number
  let afterNoon ← agree fields.afterNoon (decide (12 ≤ hour))
  let hourOfHalf ← agree fields.hourOfHalf (hour % 12)
  return { fields with afterNoon := afterNoon, hourOfHalf := hourOfHalf }

def set (fields : Fields) (field : Field) (number : Int) : Except DateFault Fields := do
  match field with
  | .year => return { fields with year := ← agree fields.year (← checkedYear number) }
  | .yearCentury =>
    return { fields with
      yearCentury := ← agree fields.yearCentury ((← within 0 2147483647 number : Nat) : Int) }
  | .yearOfCentury =>
    return { fields with
      yearOfCentury := ← agree fields.yearOfCentury ((← within 0 99 number : Nat) : Int) }
  | .isoYear => return { fields with isoYear := ← agree fields.isoYear (← checkedYear number) }
  | .isoYearOfCentury =>
    return { fields with
      isoYearOfCentury := ← agree fields.isoYearOfCentury ((← within 0 99 number : Nat) : Int) }
  | .quarter => return { fields with quarter := ← agree fields.quarter (← within 1 4 number) }
  | .month => fields.setMonth number
  | .day => return { fields with day := ← agree fields.day (← within 1 31 number) }
  | .weekFromSunday =>
    return { fields with weekFromSunday := ← agree fields.weekFromSunday (← within 0 53 number) }
  | .weekFromMonday =>
    return { fields with weekFromMonday := ← agree fields.weekFromMonday (← within 0 53 number) }
  | .isoWeek => return { fields with isoWeek := ← agree fields.isoWeek (← within 1 53 number) }
  | .daysFromSunday => fields.setWeekday (Weekday.ofIndex ((← within 0 6 number) + 6))
  | .weekdayFromMonday => fields.setWeekday (Weekday.ofIndex ((← within 1 7 number) + 6))
  | .ordinal => return { fields with ordinal := ← agree fields.ordinal (← within 1 366 number) }
  | .hour => fields.setHour number
  | .hour12 =>
    return { fields with
      hourOfHalf := ← agree fields.hourOfHalf ((← within 1 12 number) % 12) }
  | .minute => return { fields with minute := ← agree fields.minute (← within 0 59 number) }
  | .second => return { fields with second := ← agree fields.second (← within 0 60 number) }
  | .nanosecond => fields.setNanosecond number
  | .timestamp => return { fields with timestamp := ← agree fields.timestamp number }

/-- The year that a full year, a century and a year of a century determine
together.  Without a century, years from 70 on belong to the twentieth. -/
def combineYear : (full century ofCentury : Option Int) → Except DateFault (Option Int)
  | full, none, none => .ok full
  | some year, century, ofCentury =>
    if year < 0 then .error .impossible
    else if century.getD (year / 100) = year / 100 ∧ ofCentury.getD (year % 100) = year % 100 then
      .ok (some year)
    else .error .impossible
  | none, some century, some ofCentury =>
    if century * 100 + ofCentury ≤ 2147483647 then .ok (some (century * 100 + ofCentury))
    else .error .outOfRange
  | none, none, some ofCentury =>
    .ok (some (ofCentury + if ofCentury < 70 then 2000 else 1900))
  | none, some _, none => .error .notEnough

/-- Whether a known value, if there is one, is the actual one. -/
def admits {α : Type} [DecidableEq α] (known : Option α) (actual : α) : Bool :=
  known.getD actual = actual

/-- Whether the century and the year of the century, if known, are those of an
actual year; no such fields describe a year before 0. -/
def admitsCentury (century ofCentury : Option Int) (year : Int) : Bool :=
  if year < 0 then century.isNone && ofCentury.isNone
  else admits century (year / 100) && admits ofCentury (year % 100)

/-- Whether a date has the known year, month and day. -/
def admitsMonthDay (fields : Fields) (date : Date) : Bool :=
  admits fields.year date.year &&
    admitsCentury fields.yearCentury fields.yearOfCentury date.year &&
    admits fields.month date.month && admits fields.day date.day

/-- Whether a date has the known ISO year, ISO week and weekday. -/
def admitsIsoWeek (fields : Fields) (date : Date) : Bool :=
  admits fields.isoYear date.isoYear &&
    admitsCentury none fields.isoYearOfCentury date.isoYear &&
    admits fields.isoWeek date.isoWeek && admits fields.weekday date.weekday

/-- Whether a date has the known number within its year and the known weeks. -/
def admitsOrdinal (fields : Fields) (date : Date) : Bool :=
  admits fields.ordinal date.ordinal &&
    admits (fields.weekFromSunday.map Int.ofNat) (date.weekFrom .sunday) &&
    admits (fields.weekFromMonday.map Int.ofNat) (date.weekFrom .monday)

/-- The day of a weekday in a numbered week of a year, when weeks start at
`first`. -/
def dateOfWeek (year : Int) (week : Nat) (weekday first : Weekday) :
    Except DateFault Date :=
  match Date.ofOrdinal? year 1 with
  | none => .error .outOfRange
  | some newYear =>
    let firstWeek : Int := 1 + first.daysSince newYear.weekday
    let ordinal : Int := firstWeek + ((week : Int) - 1) * 7 + weekday.daysSince first
    if ordinal ≤ 0 then .error .impossible
    else
      match Date.ofOrdinal? year ordinal.toNat with
      | some date => .ok date
      | none => .error .impossible

/-- A date that exists, and whether the remaining fields agree with it. -/
def existing (date : Option Date) (agrees : Date → Bool) : Except DateFault (Date × Bool) :=
  match date with
  | some date => .ok (date, agrees date)
  | none => .error .outOfRange

/-- The date by the first group of fields that determines one, and whether the
remaining fields agree with it. -/
def candidate (fields : Fields) (year isoYear : Option Int) : Except DateFault (Date × Bool) :=
  let agreesAll (date : Date) : Bool :=
    fields.admitsMonthDay date && fields.admitsIsoWeek date && fields.admitsOrdinal date
  let byIsoWeek : Except DateFault (Date × Bool) :=
    match isoYear, fields.isoWeek, fields.weekday with
    | some isoYear, some week, some weekday =>
      existing (Date.ofIsoWeek? isoYear week weekday) fun date =>
        fields.admitsMonthDay date && fields.admitsOrdinal date
    | _, _, _ => .error .notEnough
  match year with
  | none => byIsoWeek
  | some year =>
    match fields.month, fields.day with
    | some month, some day =>
      existing (Date.ofMonthDay? year month day) fun date =>
        fields.admitsIsoWeek date && fields.admitsOrdinal date
    | _, _ =>
      match fields.ordinal with
      | some ordinal => existing (Date.ofOrdinal? year ordinal) agreesAll
      | none =>
        match fields.weekFromSunday, fields.weekFromMonday, fields.weekday with
        | some week, _, some weekday => do
          let date ← dateOfWeek year week weekday .sunday
          return (date, agreesAll date)
        | none, some week, some weekday => do
          let date ← dateOfWeek year week weekday .monday
          return (date, agreesAll date)
        | _, _, _ => byIsoWeek

def date (fields : Fields) : Except DateFault Date := do
  let year ← combineYear fields.year fields.yearCentury fields.yearOfCentury
  let isoYear ← combineYear fields.isoYear none fields.isoYearOfCentury
  let (date, agrees) ← fields.candidate year isoYear
  if agrees && admits fields.quarter date.quarter then return date
  else throw .impossible

/-- The second of the day and its fraction that the fields determine.  Second
60 is the leap second after second 59. -/
def timeOfDay (fields : Fields) : Except DateFault (Nat × Nat) := do
  let some afterNoon := fields.afterNoon | throw .notEnough
  let some hourOfHalf := fields.hourOfHalf | throw .notEnough
  let some minute := fields.minute | throw .notEnough
  let hour := (if afterNoon then 12 else 0) + hourOfHalf
  let (second, leap) :=
    match fields.second with
    | some 60 => (59, 1000000000)
    | some second => (second, 0)
    | none => (0, 0)
  match fields.nanosecond, fields.second with
  | some nanos, some _ => return (hour * 3600 + minute * 60 + second, leap + nanos)
  | some _, none => throw .notEnough
  | none, _ => return (hour * 3600 + minute * 60 + second, leap)

/-- A local time: seconds since 1970 in that local time, and the fraction. -/
def combine (date : Date) (time : Nat × Nat) : Instant :=
  ⟨date.dayNumber * 86400 + time.1, time.2⟩

/-- The local time when only a timestamp determines it: fields that were given
must agree with it. -/
def localTimeOfTimestamp (fields : Fields) (timestamp offset : Int) :
    Except DateFault Instant := do
  let seconds := timestamp + offset
  if seconds < -9223372036854775808 ∨ 9223372036854775807 < seconds then throw .outOfRange
  let here : Instant := ⟨seconds, 0⟩
  if ¬ Date.YearInRange here.date.year then throw .outOfRange
  let here : Instant ←
    if fields.second = some 60 then
      if here.second = 59 then pure here
      else if here.second = 0 then pure ⟨here.seconds - 1, 0⟩
      else throw .impossible
    else pure here
  let fields ←
    if fields.second = some 60 then pure fields
    else fields.set .second here.second
  let fields ← fields.set .year here.date.year
  let fields ← fields.set .ordinal here.date.ordinal
  let fields ← fields.set .hour here.hour
  let fields ← fields.set .minute here.minute
  return combine (← fields.date) (← fields.timeOfDay)

/-- The local time that the fields determine, given the offset of that local
time. -/
def localTime (fields : Fields) (offset : Int) : Except DateFault Instant :=
  match fields.date, fields.timeOfDay, fields.timestamp with
  | .ok date, .ok time, none => .ok (combine date time)
  | .ok date, .ok time, some timestamp =>
    let written := combine date time
    let expected := written.seconds - offset
    if timestamp = expected ∨ 1000000000 ≤ written.nanos ∧ timestamp = expected + 1 then
      .ok written
    else .error .impossible
  | .error .outOfRange, _, some _ => .error .outOfRange
  | _, .error .outOfRange, some _ => .error .outOfRange
  | .error .impossible, _, some _ => .error .impossible
  | _, .error .impossible, some _ => .error .impossible
  | _, _, some timestamp => fields.localTimeOfTimestamp timestamp offset
  | .error fault, _, none => .error fault
  | _, .error fault, none => .error fault

/-- The instant that fields with an offset determine.  A timestamp alone needs
no offset. -/
def instant (fields : Fields) : Except DateFault Instant := do
  let offset ←
    match fields.offset, fields.timestamp with
    | some offset, _ => pure offset
    | none, some _ => pure 0
    | none, none => throw DateFault.notEnough
  let written ← fields.localTime offset
  if offset ≤ -86400 ∨ 86400 ≤ offset then throw .outOfRange
  let result : Instant := ⟨written.seconds - offset, written.nanos⟩
  if Date.YearInRange result.date.year then return result
  else throw .impossible

end Fields

end ContentStore.Calendar
