/-!
Contract: what separates the parts of a TOML document.

Owns:
- `Reader`, which takes the characters that are still to be read and gives what
  it read together with the rest, or nothing if the document is malformed there;
- blanks, line ends and comments.

Does not own: values and keys.
-/

namespace ContentStore.Toml

abbrev Reader (α : Type) := List Char → Option (α × List Char)

def isBlank (symbol : Char) : Bool :=
  symbol == ' ' || symbol == '\t'

/-- A character that may stand in a comment: no control other than the tab. -/
def isPlain (symbol : Char) : Bool :=
  symbol == '\t' || (' ' ≤ symbol && symbol != '\x7f')

def skipBlanks (symbols : List Char) : List Char :=
  symbols.dropWhile isBlank

/-- The rest after a line feed, or a carriage return and a line feed. -/
def afterNewline? : List Char → Option (List Char)
  | '\n' :: rest => some rest
  | '\r' :: '\n' :: rest => some rest
  | _ => none

/-- Drop a comment, if one starts here. -/
def skipComment : List Char → List Char
  | '#' :: rest => rest.dropWhile isPlain
  | symbols => symbols

/-- The rest after blanks, an optional comment and the end of the line or of
the document. -/
def afterLineEnd? (symbols : List Char) : Option (List Char) :=
  match skipComment (skipBlanks symbols) with
  | [] => some []
  | rest => afterNewline? rest

end ContentStore.Toml
