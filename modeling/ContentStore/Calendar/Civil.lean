/-!
Contract: the proleptic Gregorian calendar, with days counted from 1 January
1970.

Owns:
- leap years, month lengths and the number of days before a year;
- `Date`, a day by year and ordinal, and its day number in both directions;
- months and days of the month, weekdays, weeks of the year and ISO weeks.

Years are unbounded integers here; the range that dates on the wire can have
is `Date.InRange`.

Does not own: times of day, offsets, text.
-/

namespace ContentStore.Calendar

/-- Whether a year has 366 days. -/
def isLeap (year : Int) : Bool :=
  year % 4 == 0 && (year % 100 != 0 || year % 400 == 0)

def yearLength (year : Int) : Nat :=
  if isLeap year then 366 else 365

def monthLengths (year : Int) : List Nat :=
  [31, if isLeap year then 29 else 28, 31, 30, 31, 30, 31, 31, 30, 31, 30, 31]

/-- The number of days from 1 January of year 0 to 1 January of a year. -/
def daysBeforeYear (year : Int) : Int :=
  365 * year + (year - 1) / 4 - (year - 1) / 100 + (year - 1) / 400 + 1

/-- The day number of 1 January 1970, counted from 1 January of year 0. -/
def epochDay : Int := 719528

/-- The days of the week. -/
inductive Weekday where
  | monday
  | tuesday
  | wednesday
  | thursday
  | friday
  | saturday
  | sunday
deriving DecidableEq, Repr

namespace Weekday

/-- The days of the week from Monday. -/
def all : List Weekday :=
  [monday, tuesday, wednesday, thursday, friday, saturday, sunday]

/-- The number of days since Monday. -/
def index : Weekday → Nat
  | monday => 0
  | tuesday => 1
  | wednesday => 2
  | thursday => 3
  | friday => 4
  | saturday => 5
  | sunday => 6

/-- The weekday that many days after a Monday. -/
def ofIndex (number : Nat) : Weekday :=
  all.getD (number % 7) monday

/-- How many days after the last `first` a weekday comes. -/
def daysSince (weekday first : Weekday) : Nat :=
  (weekday.index + 7 - first.index) % 7

end Weekday

/-- A day, by its year and its number within the year, which starts at 1. -/
structure Date where
  year : Int
  ordinal : Nat
deriving DecidableEq, Repr

namespace Date

/-- Whether a day exists: its number is within its year. -/
def Exists (date : Date) : Prop :=
  1 ≤ date.ordinal ∧ date.ordinal ≤ yearLength date.year

instance (date : Date) : Decidable date.Exists := by
  unfold Exists
  infer_instance

def YearInRange (year : Int) : Prop :=
  -262143 ≤ year ∧ year ≤ 262142

instance (year : Int) : Decidable (YearInRange year) := by
  unfold YearInRange
  infer_instance

/-- The day number, counted from 1 January 1970. -/
def dayNumber (date : Date) : Int :=
  daysBeforeYear date.year + date.ordinal - 1 - epochDay

/-- The year that a day number falls into: a guess from the mean length of a
year, corrected by at most one. -/
def yearOfDayNumber (number : Int) : Int :=
  let days := number + epochDay
  let guess := days * 400 / 146097
  if daysBeforeYear (guess + 1) ≤ days then guess + 1
  else if days < daysBeforeYear guess then guess - 1
  else guess

def ofDayNumber (number : Int) : Date :=
  let year := yearOfDayNumber number
  ⟨year, (number + epochDay - daysBeforeYear year + 1).toNat⟩

/-- Walk through month lengths: the number of the month and the day in it. -/
def monthAndDay : (lengths : List Nat) → (month remaining : Nat) → Nat × Nat
  | [], month, remaining => (month, remaining)
  | length :: lengths, month, remaining =>
    if remaining ≤ length then (month, remaining)
    else monthAndDay lengths (month + 1) (remaining - length)

/-- The month, from 1 to 12. -/
def month (date : Date) : Nat :=
  (monthAndDay (monthLengths date.year) 1 date.ordinal).1

/-- The day of the month, from 1. -/
def day (date : Date) : Nat :=
  (monthAndDay (monthLengths date.year) 1 date.ordinal).2

/-- The quarter of the year, from 1 to 4. -/
def quarter (date : Date) : Nat :=
  (date.month - 1) / 3 + 1

/-- The day with a given year, month and day of the month, if it exists and
its year is in range. -/
def ofMonthDay? (year : Int) (month day : Nat) : Option Date :=
  match (monthLengths year)[month - 1]? with
  | some length =>
    if YearInRange year ∧ 1 ≤ month ∧ 1 ≤ day ∧ day ≤ length then
      some ⟨year, ((monthLengths year).take (month - 1)).foldl (· + ·) 0 + day⟩
    else none
  | none => none

/-- The day with a given year and number within the year, if it exists and its
year is in range. -/
def ofOrdinal? (year : Int) (ordinal : Nat) : Option Date :=
  if YearInRange year ∧ Exists ⟨year, ordinal⟩ then some ⟨year, ordinal⟩ else none

/-- The weekday of a day number: day 0 is a Thursday. -/
def weekdayOfDayNumber (number : Int) : Weekday :=
  Weekday.ofIndex ((number + 3) % 7).toNat

def weekday (date : Date) : Weekday :=
  weekdayOfDayNumber date.dayNumber

/-- The week of the year when weeks start at `first`: week 1 begins with the
first such weekday of the year. -/
def weekFrom (date : Date) (first : Weekday) : Int :=
  ((date.ordinal : Int) - date.weekday.daysSince first + 6) / 7

/-- The day number of the Monday that begins the first ISO week of a year:
the week that holds 4 January. -/
def firstIsoMonday (year : Int) : Int :=
  let fourth : Int := daysBeforeYear year - epochDay + 3
  fourth - (weekdayOfDayNumber fourth).index

def isoYear (date : Date) : Int :=
  if date.dayNumber < firstIsoMonday date.year then date.year - 1
  else if firstIsoMonday (date.year + 1) ≤ date.dayNumber then date.year + 1
  else date.year

def isoWeek (date : Date) : Nat :=
  ((date.dayNumber - firstIsoMonday date.isoYear) / 7 + 1).toNat

/-- The day with a given ISO year, ISO week and weekday, if the year has that
week and the day's year is in range. -/
def ofIsoWeek? (year : Int) (week : Nat) (weekday : Weekday) : Option Date :=
  let weeks := (firstIsoMonday (year + 1) - firstIsoMonday year) / 7
  let date := ofDayNumber (firstIsoMonday year + ((week : Int) - 1) * 7 + weekday.index)
  if 1 ≤ week ∧ (week : Int) ≤ weeks ∧ YearInRange date.year then some date else none

end Date

end ContentStore.Calendar
