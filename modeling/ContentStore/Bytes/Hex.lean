import ContentStore.Bytes.Basic

/-!
Contract: the lowercase hexadecimal spelling of byte strings.

Owns:
- the sixteen digits and their values;
- `number?`, the number that digits of either case spell;
- `encode`, two digits an octet, and its partial inverse `decode`.

Does not own: what a hexadecimal string stands for.
-/

namespace ContentStore.Bytes.Hex

/-- One of the sixteen digits `0` to `9`, `a` to `f`. -/
def IsDigit (symbol : Char) : Prop :=
  ('0' ≤ symbol ∧ symbol ≤ '9') ∨ ('a' ≤ symbol ∧ symbol ≤ 'f')

instance (symbol : Char) : Decidable (IsDigit symbol) := by
  unfold IsDigit
  infer_instance

def digit (number : Nat) : Char :=
  if number < 10 then Char.ofNat (48 + number) else Char.ofNat (87 + number)

/-- The number below sixteen that a digit stands for. -/
def digitValue (symbol : Char) : Nat :=
  if symbol.toNat < 58 then symbol.toNat - 48 else symbol.toNat - 87

/-- The value of a hexadecimal digit of either case. -/
def value? (symbol : Char) : Option Nat :=
  if '0' ≤ symbol ∧ symbol ≤ '9' then some (symbol.toNat - 48)
  else if 'a' ≤ symbol ∧ symbol ≤ 'f' then some (symbol.toNat - 87)
  else if 'A' ≤ symbol ∧ symbol ≤ 'F' then some (symbol.toNat - 55)
  else none

/-- The number that digits of either case spell; none at all spell zero. -/
def number? (digits : List Char) : Option Nat :=
  digits.foldlM (fun total symbol => (value? symbol).map (total * 16 + ·)) 0

/-- Two digits for each octet, the high half first. -/
def encode (octets : Bytes) : List Char :=
  octets.flatMap fun octet => [digit (octet.toNat / 16), digit (octet.toNat % 16)]

/-- The octets that a string of digits spells; nothing for an odd number of
digits or any other character. -/
def decode : List Char → Option Bytes
  | [] => some []
  | high :: low :: rest =>
    if IsDigit high ∧ IsDigit low then
      (decode rest).map
        (UInt8.ofNat (16 * digitValue high + digitValue low) :: ·)
    else none
  | [_] => none

@[simp]
theorem length_encode (octets : Bytes) : (encode octets).length = 2 * octets.length := by
  induction octets with
  | nil => rfl
  | cons octet rest inductionHypothesis =>
    simp [encode] at inductionHypothesis ⊢
    omega

/-- Every number below sixteen has a hexadecimal digit. -/
theorem isDigit_digit {number : Nat} (small : number < 16) : IsDigit (digit number) := by
  have everyNumber : ∀ candidate ∈ List.range 16, IsDigit (digit candidate) := by decide
  exact everyNumber number (List.mem_range.2 small)

/-- A digit's value is the number it was written for. -/
theorem digitValue_digit {number : Nat} (small : number < 16) :
    digitValue (digit number) = number := by
  have everyNumber : ∀ candidate ∈ List.range 16, digitValue (digit candidate) = candidate := by
    decide
  exact everyNumber number (List.mem_range.2 small)

/-- An encoded string holds digits only. -/
theorem isDigit_of_mem_encode {octets : Bytes} {symbol : Char}
    (member : symbol ∈ encode octets) : IsDigit symbol := by
  simp only [encode, List.mem_flatMap] at member
  obtain ⟨octet, _, written⟩ := member
  have bound := octet.toNat_lt
  simp only [List.mem_cons, List.not_mem_nil, or_false] at written
  rcases written with rfl | rfl
  · exact isDigit_digit (by omega)
  · exact isDigit_digit (by omega)

/-- Decoding undoes encoding. -/
theorem decode_encode (octets : Bytes) : decode (encode octets) = some octets := by
  induction octets with
  | nil => rfl
  | cons octet rest inductionHypothesis =>
    have bound := octet.toNat_lt
    have highDigit : octet.toNat / 16 < 16 := by omega
    have lowDigit : octet.toNat % 16 < 16 := by omega
    have recombined : 16 * (octet.toNat / 16) + octet.toNat % 16 = octet.toNat := by omega
    have tail : decode (rest.flatMap fun octet =>
        [digit (octet.toNat / 16), digit (octet.toNat % 16)]) = some rest := inductionHypothesis
    simp [encode, decode, isDigit_digit highDigit, isDigit_digit lowDigit,
      digitValue_digit highDigit, digitValue_digit lowDigit, recombined, tail]

end ContentStore.Bytes.Hex
