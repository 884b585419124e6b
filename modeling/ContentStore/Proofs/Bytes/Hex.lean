import ContentStore.Proofs.Text.Symbols

/-!
Contract: lowercase hexadecimal spellings stand for one byte string each, and are
ordered as the byte strings are.

Owns:
- `ofBigEndian_bigEndian`, by which a number is recovered from its octets;
- the sixteen digits, each of which is the digit of its value, in ascending order;
- `decode_eq_some_iff`, by which reading accepts exactly what writing produces;
- `exists_decode`, by which digits that come in pairs are read;
- `encode_lt_encode_iff`, the order;
- `number?_encode`, the number that a spelling stands for.

Does not own: spellings with digits of upper case.
-/

namespace ContentStore.Bytes

variable {symbol : Char} {symbols : List Char} {number other : Nat} {octets left right : Bytes}

/-! ## Numbers in octets -/

private theorem ofBigEndian_eq_foldl (octets : Bytes) :
    ofBigEndian octets = octets.foldl (fun total octet => total * 256 + octet.toNat) 0 := by
  rw [ofBigEndian, ← List.foldr_reverse]
  induction octets.reverse with
  | nil => rfl
  | cons octet rest inductionHypothesis =>
    rw [ofLittleEndian, List.foldr_cons, inductionHypothesis, Nat.mul_comm, Nat.add_comm]

private theorem ofLittleEndian_littleEndian (count number : Nat) :
    ofLittleEndian (littleEndian count number) = number % Nat.pow 256 count := by
  induction count generalizing number with
  | zero => exact (Nat.mod_one number).symm
  | succ count inductionHypothesis =>
    have power : Nat.pow 256 (count + 1) = 256 * Nat.pow 256 count := Nat.pow_succ'
    rw [littleEndian, ofLittleEndian, inductionHypothesis, UInt8.toNat_ofNat', power]
    exact Nat.mod_mul.symm

/-- A number is spelled by as many octets as it needs. -/
theorem ofBigEndian_bigEndian {count : Nat} (small : number < Nat.pow 256 count) :
    ofBigEndian (bigEndian count number) = number := by
  rw [ofBigEndian, bigEndian, List.reverse_reverse, ofLittleEndian_littleEndian,
    Nat.mod_eq_of_lt small]

namespace Hex

/-! ## Digits -/

private theorem digitValue_lt (isDigit : IsDigit symbol) : digitValue symbol < 16 := by
  have range := Text.range_of_isDigit isDigit
  unfold digitValue
  split <;> omega

/-- A digit is written for its value. -/
theorem digit_digitValue (isDigit : IsDigit symbol) : digit (digitValue symbol) = symbol := by
  rcases isDigit with ⟨low, high⟩ | ⟨low, high⟩
  · have fromZero : 48 ≤ symbol.toNat := low
    have toNine : symbol.toNat ≤ 57 := high
    have recovered : 48 + (symbol.toNat - 48) = symbol.toNat := by omega
    rw [digitValue, if_pos (by omega), digit, if_pos (by omega), recovered, Char.ofNat_toNat]
  · have fromA : 97 ≤ symbol.toNat := low
    have toF : symbol.toNat ≤ 102 := high
    have recovered : 87 + (symbol.toNat - 87) = symbol.toNat := by omega
    rw [digitValue, if_neg (by omega), digit, if_neg (by omega), recovered, Char.ofNat_toNat]

theorem isDigit_iff_mem : IsDigit symbol ↔ symbol ∈ "0123456789abcdef".toList := by
  constructor
  · intro isDigit
    have everyDigit : ∀ number ∈ List.range 16, digit number ∈ "0123456789abcdef".toList := by
      decide
    have listed := everyDigit _ (List.mem_range.mpr (digitValue_lt isDigit))
    rwa [digit_digitValue isDigit] at listed
  · have everySymbol : ∀ symbol ∈ "0123456789abcdef".toList, IsDigit symbol := by decide
    exact everySymbol symbol

/-- Where a digit stands among the characters: the letters come after the decimal digits. -/
theorem toNat_digit (small : number < 16) :
    (digit number).toNat = if number < 10 then 48 + number else 87 + number := by
  have everyNumber : ∀ candidate ∈ List.range 16,
      (digit candidate).toNat = if candidate < 10 then 48 + candidate else 87 + candidate := by
    decide
  exact everyNumber number (List.mem_range.mpr small)

/-- Digits are ordered as the numbers below sixteen. -/
theorem digit_lt_digit_iff (small : number < 16) (otherSmall : other < 16) :
    digit number < digit other ↔ number < other := by
  have byNumber : digit number < digit other ↔ (digit number).toNat < (digit other).toNat :=
    Iff.rfl
  rw [byNumber, toNat_digit small, toNat_digit otherSmall]
  split <;> split <;> omega

private theorem digit_inj (small : number < 16) (otherSmall : other < 16) :
    digit number = digit other ↔ number = other := by
  constructor
  · intro same
    rw [← digitValue_digit small, same, digitValue_digit otherSmall]
  · intro same
    rw [same]

private theorem value?_digit (small : number < 16) : value? (digit number) = some number := by
  have everyNumber : ∀ candidate ∈ List.range 16, value? (digit candidate) = some candidate := by
    decide
  exact everyNumber number (List.mem_range.mpr small)

/-! ## Byte strings -/

private theorem encode_cons (octet : UInt8) (rest : Bytes) :
    encode (octet :: rest) =
      digit (octet.toNat / 16) :: digit (octet.toNat % 16) :: encode rest :=
  rfl

/-- What is read was written for the octets that it is read as. -/
theorem encode_of_decode (read : decode symbols = some octets) : encode octets = symbols := by
  fun_induction decode symbols generalizing octets with
  | case1 =>
    rw [← Option.some.inj read]
    rfl
  | case2 high low rest digits inductionHypothesis =>
    obtain ⟨tail, readRest, rfl⟩ := Option.map_eq_some_iff.mp read
    have highSmall := digitValue_lt digits.1
    have lowSmall := digitValue_lt digits.2
    have whole : (UInt8.ofNat (16 * digitValue high + digitValue low)).toNat =
        16 * digitValue high + digitValue low := by
      rw [UInt8.toNat_ofNat', Nat.mod_eq_of_lt (by omega)]
    have highHalf : (16 * digitValue high + digitValue low) / 16 = digitValue high := by omega
    have lowHalf : (16 * digitValue high + digitValue low) % 16 = digitValue low := by omega
    rw [encode_cons, whole, highHalf, lowHalf, digit_digitValue digits.1,
      digit_digitValue digits.2, inductionHypothesis readRest]
  | case3 => contradiction
  | case4 => contradiction

/-- Reading accepts exactly what writing produces. -/
theorem decode_eq_some_iff : decode symbols = some octets ↔ encode octets = symbols := by
  constructor
  · exact encode_of_decode
  · intro written
    rw [← written, decode_encode]

theorem length_of_decode (read : decode symbols = some octets) :
    symbols.length = 2 * octets.length := by
  rw [← encode_of_decode read, length_encode]

/-- Digits are read if they come in pairs. -/
theorem exists_decode {count : Nat} (length : symbols.length = 2 * count)
    (digits : ∀ symbol ∈ symbols, IsDigit symbol) : ∃ octets, decode symbols = some octets := by
  fun_induction decode symbols generalizing count with
  | case1 => exact ⟨[], rfl⟩
  | case2 high low rest _ inductionHypothesis =>
    have shorter : rest.length = 2 * (count - 1) := by
      rw [List.length_cons, List.length_cons] at length
      omega
    obtain ⟨octets, readRest⟩ := inductionHypothesis shorter fun symbol member =>
      digits symbol (List.mem_cons_of_mem _ (List.mem_cons_of_mem _ member))
    rw [readRest]
    exact ⟨_, rfl⟩
  | case3 high low rest otherwise =>
    have pair : IsDigit high ∧ IsDigit low := ⟨digits high (by simp), digits low (by simp)⟩
    exact absurd pair otherwise
  | case4 =>
    rw [List.length_singleton] at length
    omega

theorem encode_injective (same : encode left = encode right) : left = right := by
  have readAsLeft : decode (encode right) = some left := decode_eq_some_iff.mpr same
  rw [decode_encode] at readAsLeft
  exact (Option.some.inj readAsLeft).symm

/-- Spellings are ordered as the byte strings: octets are compared by their higher digits first,
and digits as the numbers that they stand for. -/
theorem encode_lt_encode_iff : encode left < encode right ↔ left < right := by
  induction left generalizing right with
  | nil =>
    cases right with
    | nil => simp [encode]
    | cons octet rest => simp [encode]
  | cons octet rest inductionHypothesis =>
    cases right with
    | nil => simp [encode]
    | cons octet' rest' =>
      have bound := octet.toNat_lt
      have bound' := octet'.toNat_lt
      have high : octet.toNat / 16 < 16 := by omega
      have low : octet.toNat % 16 < 16 := by omega
      have high' : octet'.toNat / 16 < 16 := by omega
      have low' : octet'.toNat % 16 < 16 := by omega
      rw [encode_cons, encode_cons, List.cons_lt_cons_iff, List.cons_lt_cons_iff,
        List.cons_lt_cons_iff, digit_lt_digit_iff high high', digit_inj high high',
        digit_lt_digit_iff low low', digit_inj low low', inductionHypothesis,
        UInt8.lt_iff_toNat_lt, ← UInt8.toNat_inj]
      -- what remains is that an octet is less if its higher digit is, or if that is the same
      -- and its lower digit is
      by_cases later : rest < rest' <;> simp only [later, and_true, and_false, or_false] <;> omega

/-! ## Numbers in digits -/

/-- Two digits for each octet spell what the octets do. -/
theorem foldlM_encode (octets : Bytes) (total : Nat) :
    (encode octets).foldlM (fun total symbol => (value? symbol).map (total * 16 + ·)) total =
      some (octets.foldl (fun total octet => total * 256 + octet.toNat) total) := by
  induction octets generalizing total with
  | nil => rfl
  | cons octet rest inductionHypothesis =>
    have bound := octet.toNat_lt
    have high := value?_digit (show octet.toNat / 16 < 16 by omega)
    have low := value?_digit (show octet.toNat % 16 < 16 by omega)
    have whole : (total * 16 + octet.toNat / 16) * 16 + octet.toNat % 16 =
        total * 256 + octet.toNat := by
      omega
    rw [List.foldl_cons, ← whole, ← inductionHypothesis]
    simp only [encode_cons, List.foldlM_cons, high, low, Option.map_some, Option.bind_eq_bind,
      Option.bind_some]

/-- A spelling stands for the number that its octets spell, most significant first. -/
theorem number?_encode (octets : Bytes) : number? (encode octets) = some (ofBigEndian octets) := by
  rw [number?, foldlM_encode, ofBigEndian_eq_foldl]

end Hex

end ContentStore.Bytes
