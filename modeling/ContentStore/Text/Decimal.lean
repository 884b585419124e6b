/-!
Contract: unsigned decimal numbers as text.

Owns:
- `write`, the shortest decimal spelling of a natural number, and `pad`, the
  spelling with a least number of digits;
- `value`, the number a string of digits stands for;
- `read`, which accepts one optional plus sign and reports the first fault
  from the left.

Does not own: units, signs of negative numbers, fractions.
-/

namespace ContentStore.Text.Decimal

def isDigit (symbol : Char) : Bool :=
  '0' ≤ symbol && symbol ≤ '9'

/-- The number below ten that a digit stands for. -/
def digitValue (symbol : Char) : Nat :=
  symbol.toNat - 48

def digit (number : Nat) : Char :=
  Char.ofNat (48 + number)

/-- The digits of a number, without leading zeros. -/
def write (number : Nat) : List Char :=
  if number < 10 then [digit number]
  else write (number / 10) ++ [digit (number % 10)]

def text (number : Nat) : String :=
  String.ofList (write number)

/-- The digits of a number, filled up with leading zeros. -/
def pad (width number : Nat) : List Char :=
  let digits := write number
  List.replicate (width - digits.length) '0' ++ digits

/-- The number that a string of digits stands for. -/
def value (digits : List Char) : Nat :=
  digits.foldl (fun total symbol => total * 10 + digitValue symbol) 0

/-- Why a text is no number. -/
inductive Fault where
  | empty
  | invalidDigit
  | tooLarge
deriving DecidableEq, Repr

/-- What is said about a text that is no number. -/
def Fault.message : Fault → String
  | .empty => "cannot parse integer from empty string"
  | .invalidDigit => "invalid digit found in string"
  | .tooLarge => "number too large to fit in target type"

/-- Read digits from the left on top of `total`; the first character that is
no digit or the first digit that passes the limit decides. -/
def readDigits (limit : Nat) (total : Nat) : List Char → Except Fault Nat
  | [] => .ok total
  | symbol :: rest =>
    if isDigit symbol then
      let next := total * 10 + digitValue symbol
      if next < limit then readDigits limit next rest else .error .tooLarge
    else .error .invalidDigit

/-- Read an unsigned number below `limit`, with an optional plus sign. -/
def read (limit : Nat) : List Char → Except Fault Nat
  | [] => .error .empty
  | ['+'] => .error .invalidDigit
  | '+' :: digits => readDigits limit 0 digits
  | digits => readDigits limit 0 digits

/-- The number of values of a 64-bit word. -/
abbrev words64 : Nat := Nat.pow 2 64

/-- The number of values of a 32-bit word. -/
abbrev words32 : Nat := Nat.pow 2 32

end ContentStore.Text.Decimal
