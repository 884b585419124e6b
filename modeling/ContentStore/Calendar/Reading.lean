import ContentStore.Calendar.Fields
import ContentStore.StoreError

/-!
Contract: reading dates from text.

Owns:
- `readItems`, which reads a text item by item under a pattern;
- `parseUniversal`, for a text without an offset;
- `parseWire`, for the wire form.

Lengths are compared in octets where that decides between a text that ends too
early and one that is wrong.

Does not own: which instant the fields determine.
-/

namespace ContentStore.Calendar.Reading

open ContentStore.Text (isBlank)

/-- The fields read so far and the text still to be read. -/
abbrev Progress := Fields × List Char

def octetCount (symbols : List Char) : Nat :=
  symbols.foldl (fun count symbol => count + symbol.utf8Size) 0

/-- A lowercase ASCII letter in place of an uppercase one. -/
def lower (symbol : Char) : Char :=
  if 'A' ≤ symbol ∧ symbol ≤ 'Z' then Char.ofNat (symbol.toNat + 32) else symbol

/-- Read at most `limit` digits on top of `total`, below 2^63. -/
def readDigits : (limit : Option Nat) → (total : Nat) → List Char →
    Except DateFault (Nat × List Char)
  | some 0, total, symbols => .ok (total, symbols)
  | _, total, [] => .ok (total, [])
  | limit, total, symbol :: rest =>
    if Text.Decimal.isDigit symbol then
      let next := total * 10 + Text.Decimal.digitValue symbol
      if next < 9223372036854775808 then readDigits (limit.map (· - 1)) next rest
      else .error .outOfRange
    else .ok (total, symbol :: rest)

/-- Read a number of at least one and at most `limit` digits. -/
def readNumber (limit : Option Nat) (symbols : List Char) :
    Except DateFault (Nat × List Char) :=
  match symbols with
  | [] => .error .tooShort
  | symbol :: _ =>
    if Text.Decimal.isDigit symbol then readDigits limit 0 symbols else .error .invalid

/-- The number of digits of a field without a sign; none for no limit. -/
def fieldWidth : Field → Option Nat
  | .year | .isoYear => some 4
  | .quarter | .daysFromSunday | .weekdayFromMonday => some 1
  | .ordinal => some 3
  | .nanosecond => some 9
  | .timestamp => none
  | _ => some 2

def isSigned : Field → Bool
  | .year | .isoYear => true
  | _ => false

/-- Read the number of a field; a sign allows any number of digits. -/
def readField (field : Field) (symbols : List Char) : Except DateFault (Int × List Char) := do
  match isSigned field, symbols.dropWhile isBlank with
  | true, '-' :: rest =>
    let (number, rest) ← readNumber none rest
    return (-(number : Int), rest)
  | true, '+' :: rest =>
    let (number, rest) ← readNumber none rest
    return ((number : Int), rest)
  | _, symbols =>
    let (number, rest) ← readNumber (fieldWidth field) symbols
    return ((number : Int), rest)

/-- Read the first three letters of one of the names, in either case: its
index and the rest. -/
def readAbbreviation (names : List String) (symbols : List Char) :
    Except DateFault (Nat × List Char) :=
  if octetCount symbols < 3 then .error .tooShort
  else
    let read := (symbols.take 3).map lower
    match names.findIdx? fun name => (name.toList.take 3).map lower = read with
    | some index => .ok (index, symbols.drop 3)
    | none => .error .invalid

/-- Read one of the names, in full or by its first three letters. -/
def readName (names : List String) (long : Bool) (symbols : List Char) :
    Except DateFault (Nat × List Char) := do
  let (index, rest) ← readAbbreviation names symbols
  let ending := (names.getD index "").toList.drop 3
  if long ∧ (rest.take ending.length).map lower = ending then
    return (index, rest.drop ending.length)
  else return (index, rest)

/-- Read `am` or `pm`, in either case: whether it is `pm`. -/
def readHalfDay (symbols : List Char) : Except DateFault (Bool × List Char) :=
  if octetCount symbols < 2 then .error .tooShort
  else
    match (symbols.take 2).map lower with
    | ['a', 'm'] => .ok (false, symbols.drop 2)
    | ['p', 'm'] => .ok (true, symbols.drop 2)
    | _ => .error .invalid

/-- Read the digits of a fraction of a second, at most nine of which count. -/
def readFraction (symbols : List Char) : Except DateFault (Nat × List Char) := do
  let (number, rest) ← readNumber (some 9) symbols
  let digits := symbols.length - rest.length
  return (number * Nat.pow 10 (9 - digits), rest.dropWhile Text.Decimal.isDigit)

/-- Read exactly `count` digits of a fraction of a second. -/
def readFractionDigits (count : Nat) (symbols : List Char) :
    Except DateFault (Nat × List Char) :=
  if octetCount symbols < count then .error .tooShort
  else
    let digits := symbols.take count
    if digits.all Text.Decimal.isDigit then
      .ok (Text.Decimal.value digits * Nat.pow 10 (9 - count), symbols.drop count)
    else .error .invalid

def readTwoDigits (symbols : List Char) : Except DateFault (Nat × List Char) :=
  if octetCount symbols < 2 then .error .tooShort
  else
    match symbols with
    | first :: second :: rest =>
      if Text.Decimal.isDigit first ∧ Text.Decimal.isDigit second then
        .ok (Text.Decimal.value [first, second], rest)
      else .error .invalid
    | _ => .error .invalid

def readSign : List Char → Except DateFault (Int × List Char)
  | '+' :: rest => .ok (1, rest)
  | '-' :: rest => .ok (-1, rest)
  | '\u2212' :: rest => .ok (-1, rest)
  | _ :: _ => .error .invalid
  | [] => .error .tooShort

/-- Read an offset from universal time in seconds: a sign, two digits of
hours, colons and white space, two digits of minutes. -/
def readOffset (permissive : Bool) (symbols : List Char) :
    Except DateFault (Int × List Char) := do
  match permissive, symbols with
  | true, 'Z' :: rest => return (0, rest)
  | true, 'z' :: rest => return (0, rest)
  | _, _ =>
    let (sign, rest) ← readSign symbols
    let (hours, rest) ← readTwoDigits rest
    let rest := rest.dropWhile fun symbol => symbol == ':' || isBlank symbol
    match permissive, rest with
    | true, [] => return (sign * (hours * 3600), [])
    | _, _ =>
      let (minutes, rest) ← readTwoDigits rest
      if 60 ≤ minutes then throw .outOfRange
      return (sign * (hours * 3600 + minutes * 60), rest)

def readLiteral (expected symbols : List Char) : Except DateFault (List Char) :=
  if octetCount symbols < octetCount expected then .error .tooShort
  else if expected.isPrefixOf symbols then .ok (symbols.drop expected.length)
  else .error .invalid

def timestampDate : Pattern :=
  [.number .year, .space, .literal ['-'], .number .month, .space, .literal ['-'], .number .day]

def timestampTime : Pattern :=
  [.number .hour, .space, .literal [':'], .number .minute, .space, .literal [':'],
    .number .second, .fraction, .space]

/-- Read one item other than the timestamp form. -/
def readItem (progress : Progress) : Item → Except DateFault Progress := fun item => do
  let (fields, symbols) := progress
  match item with
  | .literal expected => return (fields, ← readLiteral expected symbols)
  | .space => return (fields, symbols.dropWhile isBlank)
  | .number field =>
    let (number, rest) ← readField field symbols
    return (← fields.set field number, rest)
  | .monthName long =>
    let (index, rest) ← readName monthNames long symbols
    return (← fields.setMonth (index + 1), rest)
  | .weekdayName long =>
    let (index, rest) ← readName weekdayNames long symbols
    return (← fields.setWeekday (Weekday.ofIndex index), rest)
  | .halfDay =>
    let (afterNoon, rest) ← readHalfDay symbols
    return (← fields.setAfterNoon afterNoon, rest)
  | .fraction =>
    match symbols with
    | '.' :: rest =>
      let (nanos, rest) ← readFraction rest
      return (← fields.setNanosecond nanos, rest)
    | _ => return (fields, symbols)
  | .fractionDigits count =>
    let (nanos, rest) ← readFractionDigits count symbols
    return (← fields.setNanosecond nanos, rest)
  | .zoneName => return (fields, symbols.dropWhile (!isBlank ·))
  | .offset permissive =>
    let (seconds, rest) ← readOffset permissive (symbols.dropWhile isBlank)
    return (← fields.setOffset seconds, rest)
  | .timestampForm => throw .badPattern
  | .malformed => throw .badPattern

/-- The letter or blank between the date and the time of a timestamp. -/
def readSeparator : List Char → Except DateFault (List Char)
  | 'T' :: rest => .ok rest
  | 't' :: rest => .ok rest
  | ' ' :: rest => .ok rest
  | _ :: _ => .error .invalid
  | [] => .error .tooShort

/-- Read the offset of a timestamp, for which `UTC` may stand. -/
def readTimestampOffset (symbols : List Char) : Except DateFault (Int × List Char) :=
  if (symbols.take 3).map lower = ['u', 't', 'c'] then .ok (0, symbols.drop 3)
  else
    match symbols with
    | 'Z' :: rest => .ok (0, rest)
    | 'z' :: rest => .ok (0, rest)
    | _ => readOffset false symbols

/-- Read a date and time in the usual order of timestamps, with an offset. -/
def readTimestampForm (progress : Progress) : Except DateFault Progress := do
  let (fields, symbols) ← timestampDate.foldlM readItem progress
  let (fields, symbols) ← timestampTime.foldlM readItem (fields, ← readSeparator symbols)
  let (seconds, rest) ← readTimestampOffset (symbols.dropWhile isBlank)
  return (← fields.setOffset seconds, rest)

def step (progress : Progress) (item : Item) : Except DateFault Progress :=
  match item with
  | .timestampForm => readTimestampForm progress
  | item => readItem progress item

def readItems (pattern : Pattern) (text : String) : Except DateFault Fields := do
  let (fields, rest) ← pattern.foldlM step (Fields.empty, text.toList)
  if rest.isEmpty then return fields else throw .tooLong

def wirePattern : Pattern :=
  [.weekdayName false, .literal [','], .space, .number .day, .space, .monthName false, .space,
    .number .year, .space, .number .hour, .literal [':'], .number .minute, .literal [':'],
    .number .second, .space, .offset false]

end Reading

namespace Instant

def parseWire (text : String) : Except StoreError Instant :=
  match Reading.readItems Reading.wirePattern text >>= Fields.instant with
  | .ok instant => .ok instant
  | .error fault => .error (.invalidDate text none fault)

/-- The instant that a text names under a pattern, as universal time. -/
def parseUniversal (text pattern : String) : Except StoreError Instant :=
  match Reading.readItems (Pattern.ofText pattern) text >>= (Fields.localTime · 0) with
  | .ok instant => .ok instant
  | .error fault => .error (.invalidDate text (some pattern) fault)

end Instant

end ContentStore.Calendar
