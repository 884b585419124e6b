import ContentStore.Bytes.Hex
import ContentStore.Toml.Line

/-!
Contract: the strings of a TOML document.

Owns:
- `readText`, which reads the four kinds of strings;
- `writeBasic`, the spelling of any text between double quotes.

Does not own: keys, which may be strings of one line.
-/

namespace ContentStore.Toml

/-- A character that stands for itself between double quotes. -/
def isBasic (symbol : Char) : Bool :=
  isPlain symbol && symbol != '"' && symbol != '\\'

/-- A character that stands for itself between apostrophes. -/
def isLiteral (symbol : Char) : Bool :=
  isPlain symbol && symbol != '\''

/-- The character of an escape with `count` hexadecimal digits. -/
def readCodePoint (count : Nat) : Reader Char := fun symbols =>
  if (symbols.take count).length = count then
    match Bytes.Hex.number? (symbols.take count) with
    | some code =>
      if code.isValidChar then some (Char.ofNat code, symbols.drop count) else none
    | none => none
  else none

/-- The character of an escape, after its backslash. -/
def readEscape : Reader Char
  | 'b' :: rest => some ('\x08', rest)
  | 'f' :: rest => some ('\x0c', rest)
  | 'n' :: rest => some ('\n', rest)
  | 'r' :: rest => some ('\r', rest)
  | 't' :: rest => some ('\t', rest)
  | '"' :: rest => some ('"', rest)
  | '\\' :: rest => some ('\\', rest)
  | 'u' :: rest => readCodePoint 4 rest
  | 'U' :: rest => readCodePoint 8 rest
  | _ => none

/-- The rest of a string between double quotes, with at most `fuel`
characters. -/
def readBasicRest : (fuel : Nat) → Reader (List Char)
  | _, '"' :: rest => some ([], rest)
  | 0, _ => none
  | fuel + 1, '\\' :: rest => do
    let (symbol, rest) ← readEscape rest
    let (symbols, rest) ← readBasicRest fuel rest
    return (symbol :: symbols, rest)
  | fuel + 1, symbol :: rest =>
    if isBasic symbol then do
      let (symbols, rest) ← readBasicRest fuel rest
      return (symbol :: symbols, rest)
    else none
  | _, [] => none

/-- The rest of a string between apostrophes. -/
def readLiteralRest : Reader (List Char)
  | '\'' :: rest => some ([], rest)
  | symbol :: rest =>
    if isLiteral symbol then do
      let (symbols, rest) ← readLiteralRest rest
      return (symbol :: symbols, rest)
    else none
  | [] => none

/-- Drop blanks and line ends. -/
def skipBlankLines : (fuel : Nat) → List Char → List Char
  | 0, symbols => symbols
  | fuel + 1, symbols =>
    let rest := skipBlanks symbols
    match afterNewline? rest with
    | some rest => skipBlankLines fuel rest
    | none => rest

/-- The quotes at the end of a string of several lines: up to two of them
belong to the string before the three that end it. -/
def readClosing (quote : Char) (symbols : List Char) : Option (List Char × List Char) :=
  let quotes := symbols.takeWhile (· == quote)
  if quotes.length < 3 then none
  else some (List.replicate (min 2 (quotes.length - 3)) quote,
    symbols.drop (3 + min 2 (quotes.length - 3)))

/-- The rest of a string of several lines between double quotes. -/
def readLongBasicRest : (fuel : Nat) → Reader (List Char)
  | 0, _ => none
  | fuel + 1, symbols =>
    match readClosing '"' symbols, symbols with
    | some closing, _ => some closing
    | none, '\\' :: rest =>
      match afterNewline? (skipBlanks rest) with
      | some after => readLongBasicRest fuel (skipBlankLines after.length after)
      | none => do
        let (symbol, rest) ← readEscape rest
        let (symbols, rest) ← readLongBasicRest fuel rest
        return (symbol :: symbols, rest)
    | none, symbol :: rest =>
      match afterNewline? (symbol :: rest) with
      | some after => do
        let (symbols, rest) ← readLongBasicRest fuel after
        return ('\n' :: symbols, rest)
      | none =>
        if isBasic symbol || symbol == '"' then do
          let (symbols, rest) ← readLongBasicRest fuel rest
          return (symbol :: symbols, rest)
        else none
    | none, [] => none

/-- The rest of a string of several lines between apostrophes. -/
def readLongLiteralRest : (fuel : Nat) → Reader (List Char)
  | 0, _ => none
  | fuel + 1, symbols =>
    match readClosing '\'' symbols, symbols with
    | some closing, _ => some closing
    | none, symbol :: rest =>
      match afterNewline? (symbol :: rest) with
      | some after => do
        let (symbols, rest) ← readLongLiteralRest fuel after
        return ('\n' :: symbols, rest)
      | none =>
        if isPlain symbol then do
          let (symbols, rest) ← readLongLiteralRest fuel rest
          return (symbol :: symbols, rest)
        else none
    | none, [] => none

/-- The rest after a line end that follows the opening quotes directly. -/
def skipFirstNewline (symbols : List Char) : List Char :=
  (afterNewline? symbols).getD symbols

def readText : Reader (List Char)
  | '"' :: '"' :: '"' :: rest =>
    readLongBasicRest (rest.length + 1) (skipFirstNewline rest)
  | '\'' :: '\'' :: '\'' :: rest =>
    readLongLiteralRest (rest.length + 1) (skipFirstNewline rest)
  | '"' :: rest => readBasicRest (rest.length + 1) rest
  | '\'' :: rest => readLiteralRest rest
  | _ => none

/-- How one character is written between double quotes. -/
def writeBasicSymbol (symbol : Char) : List Char :=
  if isBasic symbol then [symbol]
  else
    '\\' :: 'U' :: (Bytes.bigEndian 4 symbol.toNat).flatMap fun octet =>
      [Bytes.Hex.digit (octet.toNat / 16), Bytes.Hex.digit (octet.toNat % 16)]

/-- A text as a string between double quotes. -/
def writeBasic (text : List Char) : List Char :=
  '"' :: text.flatMap writeBasicSymbol ++ ['"']

end ContentStore.Toml
