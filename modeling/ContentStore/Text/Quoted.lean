import ContentStore.Text.Shown
import ContentStore.Bytes.Hex

/-!
Contract: text in double quotes, for diagnostics.

Owns:
- `quoted`, which escapes quotes, backslashes, the common controls by letter
  and every other character that shows nothing by its code point;
- `quotedOption`, the same for a text that may be absent.

Does not own: the table of characters that show nothing.
-/

namespace ContentStore.Text

/-- The hexadecimal digits of a number, without leading zeros. -/
def hexDigits (number : Nat) : List Char :=
  if number < 16 then [Bytes.Hex.digit number]
  else hexDigits (number / 16) ++ [Bytes.Hex.digit (number % 16)]

/-- How one character is written between double quotes. -/
def quotedSymbol (symbol : Char) : List Char :=
  if symbol = '\x00' then ['\\', '0']
  else if symbol = '\t' then ['\\', 't']
  else if symbol = '\r' then ['\\', 'r']
  else if symbol = '\n' then ['\\', 'n']
  else if symbol = '"' then ['\\', '"']
  else if symbol = '\\' then ['\\', '\\']
  else if isShown symbol then [symbol]
  else ['\\', 'u', '\x7b'] ++ hexDigits symbol.toNat ++ ['\x7d']

def quoted (text : String) : String :=
  String.ofList ('"' :: text.toList.flatMap quotedSymbol ++ ['"'])

/-- A text that may be absent. -/
def quotedOption : Option String → String
  | none => "None"
  | some text => "Some(" ++ quoted text ++ ")"

end ContentStore.Text
