import ContentStore.StoreError
import ContentStore.Text.Blank
import ContentStore.Text.Decimal

/-!
Contract: byte counts with binary units, such as `10M` or `512KB`.

Owns:
- the three units and their multipliers;
- `parse`, which accepts white space at the ends, a string of digits, an
  optional unit letter and an optional letter `b`, in either case, for every
  count below 2^64;
- `format`, the shortest such spelling of a count;
- `Spells`, the grammar that `parse` accepts.
-/

namespace ContentStore.ByteSize

/-- A unit of byte counts. -/
inductive ByteUnit where
  | kilo
  | mega
  | giga
deriving DecidableEq, Repr

/-- How many bytes a unit stands for. -/
def ByteUnit.bytes : ByteUnit → Nat
  | .kilo => 1024
  | .mega => 1024 * 1024
  | .giga => 1024 * 1024 * 1024

def ByteUnit.letter : ByteUnit → Char
  | .kilo => 'K'
  | .mega => 'M'
  | .giga => 'G'

/-- The unit that a letter of either case names. -/
def ByteUnit.ofLetter? (letter : Char) : Option ByteUnit :=
  if letter = 'k' ∨ letter = 'K' then some .kilo
  else if letter = 'm' ∨ letter = 'M' then some .mega
  else if letter = 'g' ∨ letter = 'G' then some .giga
  else none

/-- A text without one letter `b` of either case at its end. -/
def withoutByteLetter (symbols : List Char) : List Char :=
  match symbols.getLast? with
  | some 'b' | some 'B' => symbols.dropLast
  | _ => symbols

/-- The digits of a text and the multiplier of the unit at its end. -/
def splitUnit (symbols : List Char) : List Char × Nat :=
  match symbols.getLast?.bind ByteUnit.ofLetter? with
  | some unit => (symbols.dropLast, unit.bytes)
  | none => (symbols, 1)

/-- The count below 2^64 that digits with a multiplier stand for. -/
def count? (digits : List Char) (multiplier : Nat) : Option Nat :=
  if digits ≠ [] ∧ digits.all Text.Decimal.isDigit ∧
      Text.Decimal.value digits * multiplier < Text.Decimal.words64 then
    some (Text.Decimal.value digits * multiplier)
  else none

def parse (text : String) : Except StoreError Nat :=
  let (digits, multiplier) :=
    splitUnit (withoutByteLetter (Text.trim Text.isBlank text.toList))
  match count? digits multiplier with
  | some count => .ok count
  | none => .error (.invalidSize text)

/-- The spelling of a count with the largest unit that divides it. -/
def format (count : Nat) : String :=
  let spelled (unit : ByteUnit) : String :=
    String.ofList (Text.Decimal.write (count / unit.bytes) ++ [unit.letter])
  if count = 0 then "0"
  else if count % ByteUnit.giga.bytes = 0 then spelled .giga
  else if count % ByteUnit.mega.bytes = 0 then spelled .mega
  else if count % ByteUnit.kilo.bytes = 0 then spelled .kilo
  else Text.Decimal.text count

/-- The optional unit of a spelling: nothing, or one letter of either case. -/
inductive UnitSpelling : List Char → Nat → Prop where
  | none : UnitSpelling [] 1
  | letter {symbol : Char} {unit : ByteUnit} :
      ByteUnit.ofLetter? symbol = some unit → UnitSpelling [symbol] unit.bytes

/-- The optional letter `b` at the end of a spelling. -/
inductive ByteLetter : List Char → Prop where
  | none : ByteLetter []
  | lower : ByteLetter ['b']
  | upper : ByteLetter ['B']

/-- The grammar of byte counts: one or more digits, an optional unit, an
optional letter `b`, for a count below 2^64. -/
inductive Spells : List Char → Nat → Prop where
  | mk {digits unit byteLetter : List Char} {multiplier : Nat} :
      digits ≠ [] →
      (∀ symbol ∈ digits, Text.Decimal.isDigit symbol = true) →
      UnitSpelling unit multiplier →
      ByteLetter byteLetter →
      Text.Decimal.value digits * multiplier < Text.Decimal.words64 →
      Spells (digits ++ unit ++ byteLetter) (Text.Decimal.value digits * multiplier)

end ContentStore.ByteSize
