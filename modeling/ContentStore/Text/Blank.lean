/-!
Contract: white space and the trimming of text.

Owns:
- `IsBlank`, the white space of Unicode;
- `trimStart`, `trimEnd` and `trim`, which remove the characters of any class
  from the ends of a list of characters.

Does not own: the white space of particular formats, which is narrower and is
named where those formats are read.
-/

namespace ContentStore.Text

/-- White space in the sense of Unicode. -/
def isBlank (symbol : Char) : Bool :=
  let code := symbol.toNat
  (9 ≤ code && code ≤ 13) || code == 0x20 || code == 0x85 || code == 0xa0 || code == 0x1680 ||
    (0x2000 ≤ code && code ≤ 0x200a) || code == 0x2028 || code == 0x2029 || code == 0x202f ||
    code == 0x205f || code == 0x3000

/-- Drop the leading characters of a class. -/
def trimStart (dropped : Char → Bool) (symbols : List Char) : List Char :=
  symbols.dropWhile dropped

/-- Drop the trailing characters of a class. -/
def trimEnd (dropped : Char → Bool) (symbols : List Char) : List Char :=
  (symbols.reverse.dropWhile dropped).reverse

/-- Drop the characters of a class at both ends. -/
def trim (dropped : Char → Bool) (symbols : List Char) : List Char :=
  trimEnd dropped (trimStart dropped symbols)

/-- A text without the white space at its ends. -/
def trimmed (text : String) : String :=
  String.ofList (trim isBlank text.toList)

/-- Whether a text holds nothing but white space. -/
def isBlankText (text : String) : Bool :=
  text.toList.all isBlank

end ContentStore.Text
