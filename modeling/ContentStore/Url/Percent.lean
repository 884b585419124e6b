import ContentStore.Bytes.Hex
import ContentStore.Text.Utf8

/-!
Contract: percent signs that stand for octets.

Owns:
- `percentEncode`, which writes the octets of some characters as percent signs
  with two uppercase digits;
- `percentDecode`, which reads such spellings, in either case, and leaves other
  percent signs alone;
- the characters that paths and queries cannot hold as they are.
-/

namespace ContentStore.Url

/-- The uppercase hexadecimal digit of a number below sixteen. -/
def upperDigit (number : Nat) : Char :=
  if number < 10 then Char.ofNat (48 + number) else Char.ofNat (55 + number)

def percentOctet (octet : UInt8) : List Char :=
  ['%', upperDigit (octet.toNat / 16), upperDigit (octet.toNat % 16)]

/-- Write the characters of a class by their octets. -/
def percentEncode (isEscaped : Char → Bool) (symbols : List Char) : List Char :=
  symbols.flatMap fun symbol =>
    if isEscaped symbol then (String.utf8EncodeChar symbol).flatMap percentOctet else [symbol]

/-- The octets of a text in which percent signs with two digits stand for
octets. -/
def percentDecode : List Char → Bytes
  | '%' :: high :: low :: rest =>
    match Bytes.Hex.value? high, Bytes.Hex.value? low with
    | some high, some low => UInt8.ofNat (high * 16 + low) :: percentDecode rest
    | _, _ => 0x25 :: percentDecode (high :: low :: rest)
  | symbol :: rest => String.utf8EncodeChar symbol ++ percentDecode rest
  | [] => []

/-- Controls, and everything beyond ASCII. -/
def isUnprintable (symbol : Char) : Bool :=
  symbol.toNat < 0x20 || 0x7f ≤ symbol.toNat

def isEscapedInPath (symbol : Char) : Bool :=
  isUnprintable symbol || " \"<>`#?\x7b\x7d".toList.contains symbol

def isEscapedInQuery (symbol : Char) : Bool :=
  isUnprintable symbol || " \"<>#'".toList.contains symbol

end ContentStore.Url
