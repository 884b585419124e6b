import ContentStore.Text.Blank

/-!
Contract: patterns that describe how a date is written.

Owns:
- `Field` and `Item`, what a pattern consists of;
- `Pattern.ofText`, which reads the `%` notation of patterns into items.

A malformed specifier becomes the item `malformed`, because it matters only
when reading a text arrives at it.

Does not own: reading a text under a pattern.
-/

namespace ContentStore.Calendar

/-- The numbers that a date can be written with. -/
inductive Field where
  | year
  | yearCentury
  | yearOfCentury
  | isoYear
  | isoYearOfCentury
  | quarter
  | month
  | day
  | weekFromSunday
  | weekFromMonday
  | isoWeek
  | daysFromSunday
  | weekdayFromMonday
  | ordinal
  | hour
  | hour12
  | minute
  | second
  | nanosecond
  | timestamp
deriving DecidableEq, Repr

/-- One part of a pattern. -/
inductive Item where
  | literal (symbols : List Char)
  /-- Any white space, also none. -/
  | space
  | number (field : Field)
  /-- A month's name; the full name too when `long`. -/
  | monthName (long : Bool)
  /-- A weekday's name; the full name too when `long`. -/
  | weekdayName (long : Bool)
  | halfDay
  /-- An optional point with a fraction of a second. -/
  | fraction
  /-- Exactly this many digits of a fraction of a second. -/
  | fractionDigits (count : Nat)
  /-- Any characters up to white space. -/
  | zoneName
  /-- An offset from universal time; `permissive` also takes a `Z` and an
  offset without minutes. -/
  | offset (permissive : Bool)
  /-- A date and time in the usual order of timestamps, with an offset. -/
  | timestampForm
  | malformed
deriving DecidableEq, Repr

abbrev Pattern := List Item

namespace Pattern

/-- Hours, minutes and seconds between colons. -/
def timeOfDay : List Item :=
  [.number .hour, .literal [':'], .number .minute, .literal [':'], .number .second]

/-- Month, day and two-digit year between slashes. -/
def monthDayYear : List Item :=
  [.number .month, .literal ['/'], .number .day, .literal ['/'], .number .yearOfCentury]

/-- The items that a specifier of one letter stands for. -/
def specifier : Char → List Item
  | 'A' => [.weekdayName true]
  | 'B' => [.monthName true]
  | 'C' => [.number .yearCentury]
  | 'D' => monthDayYear
  | 'F' => [.number .year, .literal ['-'], .number .month, .literal ['-'], .number .day]
  | 'G' => [.number .isoYear]
  | 'H' => [.number .hour]
  | 'I' => [.number .hour12]
  | 'M' => [.number .minute]
  | 'P' => [.halfDay]
  | 'R' => [.number .hour, .literal [':'], .number .minute]
  | 'S' => [.number .second]
  | 'T' => timeOfDay
  | 'U' => [.number .weekFromSunday]
  | 'V' => [.number .isoWeek]
  | 'W' => [.number .weekFromMonday]
  | 'X' => timeOfDay
  | 'Y' => [.number .year]
  | 'Z' => [.zoneName]
  | 'a' => [.weekdayName false]
  | 'b' => [.monthName false]
  | 'c' => [.weekdayName false, .space, .monthName false, .space, .number .day, .space] ++
      timeOfDay ++ [.space, .number .year]
  | 'd' => [.number .day]
  | 'e' => [.number .day]
  | 'f' => [.number .nanosecond]
  | 'g' => [.number .isoYearOfCentury]
  | 'h' => [.monthName false]
  | 'j' => [.number .ordinal]
  | 'k' => [.number .hour]
  | 'l' => [.number .hour12]
  | 'm' => [.number .month]
  | 'n' => [.space]
  | 'p' => [.halfDay]
  | 'q' => [.number .quarter]
  | 'r' => [.number .hour12, .literal [':'], .number .minute, .literal [':'], .number .second,
      .space, .halfDay]
  | 's' => [.number .timestamp]
  | 't' => [.space]
  | 'u' => [.number .weekdayFromMonday]
  | 'v' => [.number .day, .literal ['-'], .monthName false, .literal ['-'], .number .year]
  | 'w' => [.number .daysFromSunday]
  | 'x' => monthDayYear
  | 'y' => [.number .yearOfCentury]
  | 'z' => [.offset false]
  | '+' => [.timestampForm]
  | '%' => [.literal ['%']]
  | _ => [.malformed]

/-- The items of a padded specifier: only a single number can be padded. -/
def paddedSpecifier (letter : Char) : List Item :=
  match specifier letter with
  | [.number field] => [.number field]
  | _ => [.malformed]

/-- The digits of a fraction by the digit that asks for them. -/
def fractionCount : Char → Option Nat
  | '3' => some 3
  | '6' => some 6
  | '9' => some 9
  | _ => none

/-- Read one specifier after its `%`: its items and the rest of the pattern. -/
def readSpecifier : List Char → List Item × List Char
  | [] => ([.malformed], [])
  | ':' :: ':' :: ':' :: 'z' :: rest => ([.offset false], rest)
  | ':' :: ':' :: 'z' :: rest => ([.offset false], rest)
  | ':' :: 'z' :: rest => ([.offset false], rest)
  | '.' :: 'f' :: rest => ([.fraction], rest)
  | '.' :: digit :: 'f' :: rest =>
    (if (fractionCount digit).isSome then [.fraction] else [.malformed], rest)
  | '#' :: 'z' :: rest => ([.offset true], rest)
  | '-' :: letter :: rest => (paddedSpecifier letter, rest)
  | '0' :: letter :: rest => (paddedSpecifier letter, rest)
  | '_' :: letter :: rest => (paddedSpecifier letter, rest)
  | [letter] => (specifier letter, [])
  | letter :: next :: rest =>
    match fractionCount letter with
    | some count => (if next = 'f' then [.fractionDigits count] else [.malformed], rest)
    | none => (specifier letter, next :: rest)

/-- Reading a specifier leaves no more than there was. -/
theorem length_readSpecifier_le (symbols : List Char) :
    (readSpecifier symbols).2.length ≤ symbols.length := by
  unfold readSpecifier
  split <;> simp only [List.length_cons, List.length_nil] <;> try omega
  split <;> simp only [List.length_cons] <;> omega

/-- Whether a character belongs to a literal run of a pattern. -/
def isLiteral (symbol : Char) : Bool :=
  symbol != '%' && !Text.isBlank symbol

def ofSymbols : List Char → Pattern
  | [] => []
  | '%' :: rest =>
    let specified := readSpecifier rest
    have : specified.2.length < ('%' :: rest).length :=
      Nat.lt_of_le_of_lt (length_readSpecifier_le rest) (Nat.lt_succ_self _)
    specified.1 ++ ofSymbols specified.2
  | symbol :: rest =>
    if Text.isBlank symbol then
      have : (rest.dropWhile Text.isBlank).length < (symbol :: rest).length :=
        Nat.lt_succ_of_le (List.dropWhile_sublist _).length_le
      .space :: ofSymbols (rest.dropWhile Text.isBlank)
    else
      have : (rest.dropWhile isLiteral).length < (symbol :: rest).length :=
        Nat.lt_succ_of_le (List.dropWhile_sublist _).length_le
      .literal (symbol :: rest.takeWhile isLiteral) :: ofSymbols (rest.dropWhile isLiteral)
termination_by symbols => symbols.length
decreasing_by all_goals assumption

def ofText (text : String) : Pattern :=
  ofSymbols text.toList

end Pattern

end ContentStore.Calendar
