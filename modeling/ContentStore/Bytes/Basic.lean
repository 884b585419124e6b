/-!
Contract: the byte strings that every other module exchanges.

Owns: the name `Bytes` and the little-endian and big-endian spellings of words.

Does not own: any text form of a byte string.
-/

namespace ContentStore

/-- A finite string of octets. -/
abbrev Bytes := List UInt8

namespace Bytes

/-- The low `count` octets of a number, least significant first. -/
def littleEndian : (count : Nat) → (number : Nat) → Bytes
  | 0, _ => []
  | count + 1, number => UInt8.ofNat number :: littleEndian count (number / 256)

/-- The low `count` octets of a number, most significant first. -/
def bigEndian (count number : Nat) : Bytes :=
  (littleEndian count number).reverse

@[simp]
theorem length_littleEndian (count number : Nat) :
    (littleEndian count number).length = count := by
  induction count generalizing number with
  | zero => rfl
  | succ count inductionHypothesis => simp [littleEndian, inductionHypothesis]

@[simp]
theorem length_bigEndian (count number : Nat) :
    (bigEndian count number).length = count := by
  simp [bigEndian]

/-- The number that a string of octets spells, least significant first. -/
def ofLittleEndian : Bytes → Nat
  | [] => 0
  | octet :: rest => octet.toNat + 256 * ofLittleEndian rest

/-- The number that a string of octets spells, most significant first. -/
def ofBigEndian (octets : Bytes) : Nat :=
  ofLittleEndian octets.reverse

end Bytes

end ContentStore
