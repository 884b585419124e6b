import ContentStore.Text.Decimal
import ContentStore.Bytes.Hex

/-!
Contract: references in the text of a document.

Owns:
- `referent`, the character that a name between `&` and `;` stands for;
- `resolve`, the text with every reference replaced.

Only the five predefined names and the numbers of characters are known.
-/

namespace ContentStore.Markup

/-- The character of a nonzero code point that is a character. -/
def charOfCode? (code : Nat) : Option Char :=
  if code ≠ 0 ∧ code.isValidChar then some (Char.ofNat code) else none

/-- The number that hexadecimal digits stand for, one digit at least. -/
def hexNumber? (digits : List Char) : Option Nat :=
  if digits.isEmpty then none else Bytes.Hex.number? digits

/-- The number that decimal digits stand for, one digit at least. -/
def decimalNumber? (digits : List Char) : Option Nat :=
  if digits.isEmpty ∨ !digits.all Text.Decimal.isDigit then none
  else some (Text.Decimal.value digits)

def referent (name : List Char) : Option Char :=
  match name with
  | '#' :: 'x' :: digits => (hexNumber? digits).bind charOfCode?
  | '#' :: digits => (decimalNumber? digits).bind charOfCode?
  | _ =>
    if name = "lt".toList then some '<'
    else if name = "gt".toList then some '>'
    else if name = "amp".toList then some '&'
    else if name = "apos".toList then some '\''
    else if name = "quot".toList then some '"'
    else none

/-- Read text, inside the reference whose name so far, latest first, is
`pending`. -/
def resolveFrom (pending : Option (List Char)) : List Char → Option (List Char)
  | [] => if pending.isNone then some [] else none
  | symbol :: rest =>
    match pending with
    | none =>
      if symbol = '&' then resolveFrom (some []) rest
      else (resolveFrom none rest).map (symbol :: ·)
    | some name =>
      if symbol = '&' then none
      else if symbol = ';' then do
        let meant ← referent name.reverse
        let text ← resolveFrom none rest
        return meant :: text
      else resolveFrom (some (symbol :: name)) rest

/-- Text with every reference replaced; nothing if one stands for nothing. -/
def resolve (raw : List Char) : Option (List Char) :=
  resolveFrom none raw

end ContentStore.Markup
