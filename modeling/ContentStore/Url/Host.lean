import ContentStore.Text.Split
import ContentStore.Url.Percent
import ContentStore.Text.Decimal

/-!
Contract: the hosts of web addresses.

Owns:
- `Host`, a numeric address of either kind, or a name;
- `Host.ofSymbols?`, by which a host that ends in a number is a numeric address
  in any of its short, octal and hexadecimal spellings, or no host at all;
- `Host.text`, the canonical spelling.

Names are compared in lower case.  Wide forms of ASCII characters stand for
these; other characters beyond ASCII are kept as they are.
-/

namespace ContentStore.Url

inductive Host where
  /-- A 32-bit address. -/
  | short (address : Nat)
  /-- An address of eight 16-bit pieces. -/
  | long (pieces : List Nat)
  | name (text : List Char)
deriving DecidableEq, Repr

namespace Host

def numberIn (base : Nat) (digits : List Char) : Option Nat := do
  let values ← digits.mapM Bytes.Hex.value?
  if values.all (· < base) then return values.foldl (fun total value => total * base + value) 0
  else none

/-- The number that a part of a numeric address stands for: hexadecimal after
`0x`, octal after a further zero, and decimal otherwise. -/
def part? : List Char → Option Nat
  | [] => none
  | '0' :: 'x' :: digits | '0' :: 'X' :: digits => numberIn 16 digits
  | '0' :: digit :: digits => numberIn 8 (digit :: digits)
  | digits => numberIn 10 digits

/-- The parts of a name between points; a point at the end adds none. -/
def labels (name : List Char) : List (List Char) :=
  let labels := Text.fields (· == '.') name
  if labels.getLast? = some [] then labels.dropLast else labels

/-- Whether the last part of a name is a number, so that the whole must be a
numeric address. -/
def endsInNumber (name : List Char) : Bool :=
  match (labels name).getLast? with
  | none => false
  | some last => (!last.isEmpty && last.all Text.Decimal.isDigit) || (part? last).isSome

/-- The address of up to four parts, of which all but the last stand for one
octet, and the last for all that remain. -/
def address? (name : List Char) : Option Nat := do
  let parts ← (labels name).mapM part?
  let last ← parts.getLast?
  let front := parts.dropLast
  let room := Nat.pow 256 (4 - front.length)
  if 3 < front.length ∨ front.any (255 < ·) ∨ room ≤ last then none
  else return front.foldl (fun total part => total * 256 + part) 0 * room + last

def piece? (digits : List Char) : Option Nat :=
  if digits.isEmpty ∨ 4 < digits.length then none else numberIn 16 digits

/-- An octet in decimal, without leading zeros. -/
def octet? (digits : List Char) : Option Nat := do
  if digits.isEmpty ∨ (digits.head? = some '0' ∧ 1 < digits.length) then none
  else
    let number ← numberIn 10 digits
    if number ≤ 255 then return number else none

/-- Two pieces that are written as four octets with points. -/
def dotted? (digits : List Char) : Option (List Nat) := do
  let octets ← (Text.fields (· == '.') digits).mapM octet?
  match octets with
  | [first, second, third, fourth] => return [first * 256 + second, third * 256 + fourth]
  | _ => none

/-- The pieces between colons; the last two may be written as octets if
`isEnd` holds. -/
def pieces? (isEnd : Bool) (symbols : List Char) : Option (List Nat) :=
  if symbols.isEmpty then some []
  else
    let groups := Text.fields (· == ':') symbols
    let last := groups.getLastD []
    if isEnd ∧ last.contains '.' then do
      return (← groups.dropLast.mapM piece?) ++ (← dotted? last)
    else groups.mapM piece?

/-- The eight pieces of a long address; two colons in a row stand for one or
more pieces that are zero. -/
def long? (symbols : List Char) : Option (List Nat) :=
  match Text.cut "::".toList symbols with
  | none => do
    let pieces ← pieces? true symbols
    if pieces.length = 8 then return pieces else none
  | some (before, after) => do
    let front ← pieces? false before
    let back ← pieces? true after
    if front.length + back.length ≤ 7 then
      return front ++ List.replicate (8 - front.length - back.length) 0 ++ back
    else none

/-- What no name may hold. -/
def isForbidden (symbol : Char) : Bool :=
  symbol.toNat ≤ 0x20 || symbol.toNat == 0x7f || "#%/:<>?@[\\]^|".toList.contains symbol

/-- What a character of a name stands for: a wide form for the ASCII character,
an ideographic stop for a point, and one that shows nothing for nothing. -/
def narrow (symbol : Char) : List Char :=
  let code := symbol.toNat
  if 0xff01 ≤ code ∧ code ≤ 0xff5e then [Char.ofNat (code - 0xfee0)]
  else if code = 0x3002 ∨ code = 0xff61 then ['.']
  else if code = 0xad ∨ code = 0x200b ∨ code = 0x2060 ∨ code = 0xfeff then []
  else [symbol]

/-- The host that is spelled by some characters. -/
def ofSymbols? (symbols : List Char) : Option Host :=
  match symbols with
  | '[' :: rest =>
    if rest.getLast? = some ']' then (long? rest.dropLast).map .long else none
  | _ =>
    let name := ((Text.Utf8.decodeLossy (percentDecode symbols)).flatMap narrow).map Char.toLower
    if name.isEmpty ∨ name.any isForbidden then none
    else if endsInNumber name then (address? name).map .short
    else some (.name name)

/-- The length of the run of zeros at the front of some pieces. -/
def zeroRun (pieces : List Nat) : Nat :=
  (pieces.takeWhile (· == 0)).length

/-- Where the first of the longest runs of zeros begins, and its length. -/
def longestRun (pieces : List Nat) : Nat × Nat :=
  (List.range pieces.length).foldl
    (fun best start =>
      let length := zeroRun (pieces.drop start)
      if best.2 < length then (start, length) else best)
    (0, 0)

/-- Pieces in hexadecimal, between colons. -/
def pieceText (pieces : List Nat) : List Char :=
  [':'].intercalate (pieces.map fun piece => Nat.toDigits 16 piece)

def text : Host → List Char
  | short address =>
    ['.'].intercalate
      ([address / 16777216, address / 65536 % 256, address / 256 % 256, address % 256].map
        Text.Decimal.write)
  | long pieces =>
    let (start, length) := longestRun pieces
    let inside :=
      if length < 2 then pieceText pieces
      else pieceText (pieces.take start) ++ "::".toList ++ pieceText (pieces.drop (start + length))
    '[' :: inside ++ [']']
  | name text => text

end Host

end ContentStore.Url
