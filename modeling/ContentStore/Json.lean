import ContentStore.Text.Decimal
import ContentStore.Text.Quoted

/-!
Contract: JSON values as they are printed.

Owns:
- `Json`, values whose numbers are natural and whose members are ordered;
- `Json.text`, which gives every element and member a line of its own, two
  blanks further in than what encloses it;
- `quote`, which escapes quotes, backslashes and controls only.
-/

namespace ContentStore

/-- A JSON value. -/
inductive Json where
  | null
  | number (value : Nat)
  | string (value : String)
  | array (elements : List Json)
  | object (members : List (String × Json))

namespace Json

def fourDigits (number : Nat) : List Char :=
  let digits := Text.hexDigits number
  List.replicate (4 - digits.length) '0' ++ digits

/-- How one character is written between double quotes. -/
def quoteSymbol (symbol : Char) : List Char :=
  if symbol = '"' then ['\\', '"']
  else if symbol = '\\' then ['\\', '\\']
  else if symbol = '\x08' then ['\\', 'b']
  else if symbol = '\t' then ['\\', 't']
  else if symbol = '\n' then ['\\', 'n']
  else if symbol = '\x0c' then ['\\', 'f']
  else if symbol = '\r' then ['\\', 'r']
  else if symbol.toNat < 0x20 then ['\\', 'u'] ++ fourDigits symbol.toNat
  else [symbol]

def quote (text : String) : List Char :=
  '"' :: text.toList.flatMap quoteSymbol ++ ['"']

def lineStart (depth : Nat) : List Char :=
  '\n' :: List.replicate (2 * depth) ' '

/-- Entries between brackets, each on a line of its own. -/
def enclose (depth : Nat) (opening closing : Char) (entries : List (List Char)) : List Char :=
  if entries.isEmpty then [opening, closing]
  else
    opening :: [','].intercalate (entries.map (lineStart (depth + 1) ++ ·)) ++
      lineStart depth ++ [closing]

mutual

/-- A value that begins on a line of some depth. -/
def write (depth : Nat) : Json → List Char
  | null => "null".toList
  | number value => Text.Decimal.write value
  | string value => quote value
  | array elements => enclose depth '[' ']' (writeElements (depth + 1) elements)
  | object members => enclose depth '\x7b' '\x7d' (writeMembers (depth + 1) members)

def writeElements (depth : Nat) : List Json → List (List Char)
  | [] => []
  | element :: rest => write depth element :: writeElements depth rest

def writeMembers (depth : Nat) : List (String × Json) → List (List Char)
  | [] => []
  | (name, value) :: rest =>
    (quote name ++ [':', ' '] ++ write depth value) :: writeMembers depth rest

end

def text (value : Json) : String :=
  String.ofList (write 0 value)

/-- A text that may be absent. -/
def ofOption : Option String → Json
  | some value => string value
  | none => null

end Json

end ContentStore
