import ContentStore.Bytes.Basic

/-!
Contract: UTF-8 between characters and octets.

Owns:
- `encode`, the octets of a text;
- `nextSymbol`, which reads one character or the longest beginning of one that
  no octet can complete;
- `decode`, strict, and `decodeLossy`, which writes U+FFFD for every such
  beginning.
-/

namespace ContentStore.Text.Utf8

def encodeSymbols (symbols : List Char) : Bytes :=
  symbols.flatMap String.utf8EncodeChar

def encode (text : String) : Bytes :=
  encodeSymbols text.toList

/-- What stands at the front of a string of octets. -/
inductive Reading where
  /-- A character and the octets after it. -/
  | symbol (read : Char) (rest : Bytes)
  /-- Octets that belong to no character, and those after them. -/
  | malformed (rest : Bytes)
deriving Repr

/-- The octets that are still to be read. -/
def Reading.rest : Reading → Bytes
  | .symbol _ rest => rest
  | .malformed rest => rest

/-- Read `owed` continuation octets, the next of them between `low` and
`high`, on top of the bits in `code`. -/
def readTail : (owed low high code : Nat) → Bytes → Reading
  | 0, _, _, code, rest => .symbol (Char.ofNat code) rest
  | _ + 1, _, _, _, [] => .malformed []
  | owed + 1, low, high, code, octet :: rest =>
    if low ≤ octet.toNat ∧ octet.toNat ≤ high then
      readTail owed 0x80 0xbf (code * 64 + octet.toNat % 64) rest
    else .malformed (octet :: rest)

/-- Read the character that begins with the octet `lead`. -/
def nextSymbol (lead : UInt8) (rest : Bytes) : Reading :=
  let octet := lead.toNat
  if octet < 0x80 then .symbol (Char.ofNat octet) rest
  else if octet < 0xc2 then .malformed rest
  else if octet < 0xe0 then readTail 1 0x80 0xbf (octet % 32) rest
  else if octet = 0xe0 then readTail 2 0xa0 0xbf 0 rest
  else if octet = 0xed then readTail 2 0x80 0x9f 13 rest
  else if octet < 0xf0 then readTail 2 0x80 0xbf (octet % 16) rest
  else if octet = 0xf0 then readTail 3 0x90 0xbf 0 rest
  else if octet < 0xf4 then readTail 3 0x80 0xbf (octet % 8) rest
  else if octet = 0xf4 then readTail 3 0x80 0x8f 4 rest
  else .malformed rest

/-- Reading continuation octets never lengthens what is left. -/
theorem length_readTail_le (owed low high code : Nat) (octets : Bytes) :
    (readTail owed low high code octets).rest.length ≤ octets.length := by
  induction owed generalizing low high code octets with
  | zero => simp [readTail, Reading.rest]
  | succ owed inductionHypothesis =>
    cases octets with
    | nil => simp [readTail, Reading.rest]
    | cons octet rest =>
      simp only [readTail]
      split
      · have shorter := inductionHypothesis 0x80 0xbf (code * 64 + octet.toNat % 64) rest
        simp only [List.length_cons]
        omega
      · simp [Reading.rest]

/-- Reading a character leaves no more than what followed its first octet. -/
theorem length_nextSymbol_le (lead : UInt8) (rest : Bytes) :
    (nextSymbol lead rest).rest.length ≤ rest.length := by
  simp only [nextSymbol, apply_ite Reading.rest, apply_ite List.length]
  have tails := length_readTail_le
  repeat' split
  all_goals first | exact tails _ _ _ _ _ | exact Nat.le_refl _

/-- The characters of well-formed octets; nothing if any are malformed. -/
def decode : Bytes → Option (List Char)
  | [] => some []
  | lead :: rest =>
    match reading : nextSymbol lead rest with
    | .symbol read remaining =>
      have : remaining.length < (lead :: rest).length := by
        have bound := length_nextSymbol_le lead rest
        rw [reading] at bound
        simp only [Reading.rest] at bound
        simp only [List.length_cons]
        omega
      (decode remaining).map (read :: ·)
    | .malformed _ => none
termination_by octets => octets.length
decreasing_by all_goals assumption

/-- The characters of any octets, with U+FFFD where they are malformed. -/
def decodeLossy : Bytes → List Char
  | [] => []
  | lead :: rest =>
    match reading : nextSymbol lead rest with
    | .symbol read remaining =>
      have : remaining.length < (lead :: rest).length := by
        have bound := length_nextSymbol_le lead rest
        rw [reading] at bound
        simp only [Reading.rest] at bound
        simp only [List.length_cons]
        omega
      read :: decodeLossy remaining
    | .malformed remaining =>
      have : remaining.length < (lead :: rest).length := by
        have bound := length_nextSymbol_le lead rest
        rw [reading] at bound
        simp only [Reading.rest] at bound
        simp only [List.length_cons]
        omega
      '\ufffd' :: decodeLossy remaining
termination_by octets => octets.length
decreasing_by all_goals assumption

def text? (octets : Bytes) : Option String :=
  (decode octets).map String.ofList

def textLossy (octets : Bytes) : String :=
  String.ofList (decodeLossy octets)

end ContentStore.Text.Utf8
