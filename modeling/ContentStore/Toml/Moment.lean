import ContentStore.Calendar.Civil
import ContentStore.Toml.Number

/-!
Contract: the dates and times of a TOML document.

Owns:
- dates, times of day, and both together with an optional offset, of which only
  the spelling is kept;
- `readNumberOrDate`, which tells them from numbers.

Does not own: instants and what dates mean.
-/

namespace ContentStore.Toml

/-- A number of exactly `count` digits. -/
def readFixed (count : Nat) : Reader Nat := fun symbols =>
  let digits := symbols.take count
  if digits.length = count ∧ digits.all Text.Decimal.isDigit then
    some (Text.Decimal.value digits, symbols.drop count)
  else none

/-- How reading a date or a time went: text that starts like one must go on
like one. -/
inductive Attempt where
  /-- The text does not start like a date or a time. -/
  | absent
  /-- The text starts like one, but is malformed or impossible. -/
  | broken
  /-- The rest after a date or a time. -/
  | complete (rest : List Char)
deriving DecidableEq, Repr

def hasDay (year month day : Nat) : Bool :=
  1 ≤ month && 1 ≤ day && ((Calendar.monthLengths year)[month - 1]?).any (day ≤ ·)

/-- The month and the day of a date, after its year and a hyphen. -/
def readMonthAndDay (year : Nat) (symbols : List Char) : Attempt :=
  match readFixed 2 symbols with
  | some (month, '-' :: rest) =>
    match readFixed 2 rest with
    | some (day, rest) =>
      if hasDay year month day then .complete rest else .broken
    | none => .broken
  | _ => .broken

def readDay (symbols : List Char) : Attempt :=
  match readFixed 4 symbols with
  | some (year, '-' :: rest) => readMonthAndDay year rest
  | _ => .absent

def skipFraction : List Char → List Char
  | '.' :: symbol :: rest =>
    if Text.Decimal.isDigit symbol then rest.dropWhile Text.Decimal.isDigit
    else '.' :: symbol :: rest
  | symbols => symbols

/-- The minute, the second and an optional fraction, after the hour and a
colon. -/
def readMinuteAndSecond (symbols : List Char) : Attempt :=
  match readFixed 2 symbols with
  | some (minute, ':' :: rest) =>
    match readFixed 2 rest with
    | some (second, rest) =>
      if minute ≤ 59 ∧ second ≤ 60 then .complete (skipFraction rest) else .broken
    | none => .broken
  | _ => .broken

def readTime (symbols : List Char) : Attempt :=
  match readFixed 2 symbols with
  | some (hour, ':' :: rest) => if hour ≤ 23 then readMinuteAndSecond rest else .absent
  | _ => .absent

/-- The digits of an offset, after its sign. -/
def readOffsetRest (symbols : List Char) : Attempt :=
  match readFixed 2 symbols with
  | some (hour, ':' :: rest) =>
    match readFixed 2 rest with
    | some (minute, rest) => if hour ≤ 23 ∧ minute ≤ 59 then .complete rest else .broken
    | none => .broken
  | _ => .broken

/-- An optional offset from universal time. -/
def readOffset : List Char → Attempt
  | 'Z' :: rest => .complete rest
  | 'z' :: rest => .complete rest
  | '+' :: rest => readOffsetRest rest
  | '-' :: rest => readOffsetRest rest
  | symbols => .complete symbols

/-- A time of day after a date and one separator; `whole` is the text from the
separator on, which stays unread if no time follows. -/
def readTimeAfterDate (whole rest : List Char) : Attempt :=
  match readTime rest with
  | .absent => .complete whole
  | .broken => .broken
  | .complete rest => readOffset rest

/-- A date, a time of day, or both with an optional offset. -/
def readDate (symbols : List Char) : Attempt :=
  match readDay symbols with
  | .broken => .broken
  | .absent => readTime symbols
  | .complete ('T' :: rest) => readTimeAfterDate ('T' :: rest) rest
  | .complete ('t' :: rest) => readTimeAfterDate ('t' :: rest) rest
  | .complete (' ' :: rest) => readTimeAfterDate (' ' :: rest) rest
  | .complete rest => .complete rest

/-- A value that starts with a digit or a sign. -/
def readNumberOrDate : Reader Item := fun symbols =>
  match readDate symbols with
  | .broken => none
  | .absent => readNumber symbols
  | .complete rest =>
    some (.date (String.ofList (symbols.take (symbols.length - rest.length))), rest)

end ContentStore.Toml
