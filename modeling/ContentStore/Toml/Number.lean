import ContentStore.Bytes.Hex
import ContentStore.Text.Decimal
import ContentStore.Toml.Item
import ContentStore.Toml.Line

/-!
Contract: the numbers of a TOML document.

Owns:
- integers of 64 bits in four bases, with single underscores between digits;
- floating-point numbers, of which only the spelling is kept; one that would
  round to positive infinity is refused.

Does not own: dates, which begin with digits too.
-/

namespace ContentStore.Toml

/-- The digits after a first one, with single underscores between them. -/
def readMoreDigits (isDigit : Char → Bool) : Reader (List Char)
  | '_' :: next :: rest =>
    if isDigit next then
      (readMoreDigits isDigit rest).map fun (digits, rest) => (next :: digits, rest)
    else none
  | ['_'] => none
  | next :: rest =>
    if isDigit next then
      (readMoreDigits isDigit rest).map fun (digits, rest) => (next :: digits, rest)
    else some ([], next :: rest)
  | [] => some ([], [])

/-- Digits of a class, with single underscores between them. -/
def readDigits (isDigit : Char → Bool) : Reader (List Char)
  | symbol :: rest =>
    if isDigit symbol then
      (readMoreDigits isDigit rest).map fun (digits, rest) => (symbol :: digits, rest)
    else none
  | [] => none

def numberOf (base : Nat) (digits : List Char) : Nat :=
  digits.foldl (fun total symbol => total * base + (Bytes.Hex.value? symbol).getD 0) 0

def isDigitBelow (base : Nat) (symbol : Char) : Bool :=
  '0' ≤ symbol && symbol.toNat < 48 + base

/-- An integer that fits 64 bits. -/
def checked (number : Int) : Option Int :=
  if -9223372036854775808 ≤ number ∧ number ≤ 9223372036854775807 then some number else none

/-- The digits of an integer in another base, after its two-character mark. -/
def readBased (base : Nat) (isDigit : Char → Bool) : Reader Int := fun symbols => do
  let (digits, rest) ← readDigits isDigit symbols
  return (← checked (numberOf base digits), rest)

/-- Decimal digits without a leading zero. -/
def readDecimalDigits : Reader (List Char)
  | '0' :: rest => some (['0'], rest)
  | symbols => readDigits Text.Decimal.isDigit symbols

def readSign : List Char → List Char × List Char
  | '+' :: rest => (['+'], rest)
  | '-' :: rest => (['-'], rest)
  | symbols => ([], symbols)

def readInteger : Reader Int
  | '0' :: 'x' :: rest => readBased 16 (fun symbol => (Bytes.Hex.value? symbol).isSome) rest
  | '0' :: 'o' :: rest => readBased 8 (isDigitBelow 8) rest
  | '0' :: 'b' :: rest => readBased 2 (isDigitBelow 2) rest
  | symbols => do
    let (sign, rest) := readSign symbols
    let (digits, rest) ← readDecimalDigits rest
    let number : Int := Text.Decimal.value digits
    return (← checked (if sign = ['-'] then -number else number), rest)

/-- An exponent, after its letter: its sign and digits. -/
def readExponent : Reader (List Char × List Char) := fun symbols => do
  let (sign, rest) := readSign symbols
  let (digits, rest) ← readDigits Text.Decimal.isDigit rest
  return ((sign, digits), rest)

/-- Whether `digits · 10^exponent` is at least the least number that rounds to
infinity in 64-bit binary floating point. -/
def overflows (digits : List Char) (exponent : Int) : Bool :=
  let significant := digits.dropWhile (· == '0')
  let magnitude : Int := exponent + significant.length
  if significant = [] ∨ magnitude < 309 then false
  else if 310 ≤ magnitude then true
  else if 0 ≤ exponent then
    (Nat.pow 2 54 - 1) * Nat.pow 2 970 ≤
      Text.Decimal.value significant * Nat.pow 10 exponent.toNat
  else
    (Nat.pow 2 54 - 1) * Nat.pow 2 970 * Nat.pow 10 exponent.natAbs ≤
      Text.Decimal.value significant

def exponentOf (sign digits : List Char) : Int :=
  let number : Int := Text.Decimal.value digits
  if sign = ['-'] then -number else number

/-- How a number ends that may be a floating-point number: whether it is one
may not be left open after a point or the letter of an exponent. -/
inductive FloatEnd where
  /-- No point and no exponent follow. -/
  | absent
  /-- A point or an exponent follows, but not a complete one. -/
  | broken
  | complete (fraction : List Char) (exponent : Int) (rest : List Char)

/-- The exponent after the fraction digits of a number, if there is one. -/
def readFloatExponent (fraction : List Char) (letterRequired : Bool) (symbols : List Char) :
    FloatEnd :=
  let exponent (rest : List Char) : FloatEnd :=
    match readExponent rest with
    | some ((sign, digits), rest) => .complete fraction (exponentOf sign digits) rest
    | none => .broken
  match symbols with
  | 'e' :: rest => exponent rest
  | 'E' :: rest => exponent rest
  | _ => if letterRequired then .absent else .complete fraction 0 symbols

def readFloatEnd : List Char → FloatEnd
  | '.' :: rest =>
    match readDigits Text.Decimal.isDigit rest with
    | some (fraction, rest) => readFloatExponent fraction false rest
    | none => .broken
  | symbols => readFloatExponent [] true symbols

/-- An integer or a floating-point number. -/
def readNumber : Reader Item := fun symbols =>
  let (sign, unsigned) := readSign symbols
  match unsigned with
  | 'i' :: 'n' :: 'f' :: rest => some (.float (String.ofList (sign ++ "inf".toList)), rest)
  | 'n' :: 'a' :: 'n' :: rest => some (.float (String.ofList (sign ++ "nan".toList)), rest)
  | _ =>
    match readDecimalDigits unsigned with
    | none => none
    | some (digits, afterDigits) =>
      match readFloatEnd afterDigits with
      | .absent => (readInteger symbols).map fun (number, rest) => (.integer number, rest)
      | .broken => none
      | .complete fraction exponent rest =>
        if sign ≠ ['-'] ∧ overflows (digits ++ fraction) (exponent - fraction.length) then none
        else
          let spelled := symbols.take (symbols.length - rest.length)
          some (.float (String.ofList spelled), rest)

end ContentStore.Toml
