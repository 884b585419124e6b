import ContentStore.Calendar.Civil
import ContentStore.Text.Decimal

/-!
Contract: instants of universal time and their wire form.

Owns:
- `Instant`, seconds since 1970 with a fraction that reaches past one second
  during a leap second;
- which instants there are, and the second that each shows;
- the civil fields of an instant;
- `wire`, the form `Tue, 27 Mar 2007 19:36:42 +0000`, and `wireWithOffset`,
  the same form in a local time.

Does not own: reading that form.
-/

namespace ContentStore.Calendar

/-- An instant of universal time.  Values of `nanos` from 10^9 on lie in a leap
second, which may follow any second, but has a number of its own only after
second 59 of a minute. -/
structure Instant where
  /-- Whole seconds since the beginning of 1970, leap seconds not counted. -/
  seconds : Int
  /-- Billionths of a second after that. -/
  nanos : Nat
deriving DecidableEq, Repr

def monthNames : List String :=
  ["January", "February", "March", "April", "May", "June", "July", "August", "September",
   "October", "November", "December"]

def weekdayNames : List String :=
  ["Monday", "Tuesday", "Wednesday", "Thursday", "Friday", "Saturday", "Sunday"]

/-- The first three letters of a month's name. -/
def monthAbbreviation (month : Nat) : List Char :=
  (monthNames.getD (month - 1) "").toList.take 3

/-- The first three letters of a weekday's name. -/
def weekdayAbbreviation (weekday : Weekday) : List Char :=
  (weekdayNames.getD weekday.index "").toList.take 3

/-- A year as text: four digits from 0 to 9999, else a sign and at least four
digits. -/
def writeYear (year : Int) : List Char :=
  if 0 ≤ year ∧ year ≤ 9999 then Text.Decimal.pad 4 year.toNat
  else (if year < 0 then '-' else '+') :: Text.Decimal.pad 4 year.natAbs

namespace Instant

def date (instant : Instant) : Date :=
  Date.ofDayNumber (instant.seconds / 86400)

/-- The second of the day, from 0. -/
def secondOfDay (instant : Instant) : Nat :=
  (instant.seconds % 86400).toNat

def hour (instant : Instant) : Nat :=
  instant.secondOfDay / 3600

def minute (instant : Instant) : Nat :=
  instant.secondOfDay / 60 % 60

/-- The second of the minute, one more during a leap second. -/
def second (instant : Instant) : Nat :=
  instant.secondOfDay % 60 + instant.nanos / 1000000000

/-- The fields of the wire form up to the time of day. -/
def wireFields (instant : Instant) : List Char :=
  let date := instant.date
  weekdayAbbreviation date.weekday ++ [',', ' '] ++
    Text.Decimal.pad 2 date.day ++ [' '] ++ monthAbbreviation date.month ++ [' '] ++
    writeYear date.year ++ [' '] ++
    Text.Decimal.pad 2 instant.hour ++ [':'] ++ Text.Decimal.pad 2 instant.minute ++ [':'] ++
    Text.Decimal.pad 2 instant.second

def wire (instant : Instant) : String :=
  String.ofList (instant.wireFields ++ " +0000".toList)

/-- A whole number of minutes east of universal time, as `+hhmm` or `-hhmm`. -/
def writeOffset (minutes : Int) : List Char :=
  (if minutes < 0 then '-' else '+') ::
    (Text.Decimal.pad 2 (minutes.natAbs / 60) ++ Text.Decimal.pad 2 (minutes.natAbs % 60))

/-- The wire form of an instant in a local time some minutes east of universal
time. -/
def wireWithOffset (instant : Instant) (minutes : Int) : String :=
  let localTime : Instant := ⟨instant.seconds + 60 * minutes, instant.nanos⟩
  String.ofList (localTime.wireFields ++ [' '] ++ writeOffset minutes)

/-- The instant with its fraction of a second dropped; a leap second stays one. -/
def wholeSecond (instant : Instant) : Instant :=
  ⟨instant.seconds, instant.nanos / 1000000000 * 1000000000⟩

/-- The instants that can be represented: a year in range, and a fraction of less
than two seconds, after whatever second. -/
def Representable (instant : Instant) : Prop :=
  Date.YearInRange instant.date.year ∧ instant.nanos < 2000000000

/-- Whether a leap second, if it is one, follows second 59 of a minute. -/
def LeapInPlace (instant : Instant) : Prop :=
  instant.nanos < 1000000000 ∨ instant.secondOfDay % 60 = 59

/-- The second that an instant shows: its own, or the next one during a leap
second that does not follow second 59. -/
def shown (instant : Instant) : Instant :=
  if instant.secondOfDay % 60 = 59 then instant.wholeSecond
  else ⟨instant.seconds + (instant.nanos / 1000000000 : Nat), 0⟩

end Instant

end ContentStore.Calendar
