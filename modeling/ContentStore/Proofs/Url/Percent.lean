import ContentStore.Proofs.Text.Symbols
import ContentStore.Proofs.Text.Utf8
import ContentStore.Url.Percent
import Mathlib.Tactic.Common

/-!
Contract: what texts with percent signs stand for.

Owns:
- equations for reading a text character by character;
- that escaping the characters that a path cannot hold does not change what the
  text stands for;
- that a text stands for no more octets than it has itself, and for just as many
  only if it spells none;
- that a text is read in pieces at its slashes.

Does not own: which texts are paths.
-/

namespace ContentStore.Url

variable {symbol high low : Char} {symbols rest : List Char} {highNumber lowNumber : Nat}

/-! ## Reading -/

/-- Whether two digits come first. -/
def opensDigits : List Char → Bool
  | high :: low :: _ => (Bytes.Hex.value? high).isSome && (Bytes.Hex.value? low).isSome
  | _ => false

theorem percentDecode_spelled (highDigit : Bytes.Hex.value? high = some highNumber)
    (lowDigit : Bytes.Hex.value? low = some lowNumber) (rest : List Char) :
    percentDecode ('%' :: high :: low :: rest) =
      UInt8.ofNat (highNumber * 16 + lowNumber) :: percentDecode rest := by
  rw [percentDecode]
  simp only [highDigit, lowDigit]

/-- Any other character stands for its own octets, a percent sign included. -/
theorem percentDecode_cons (alone : symbol = '%' → opensDigits rest = false) :
    percentDecode (symbol :: rest) = String.utf8EncodeChar symbol ++ percentDecode rest := by
  by_cases percent : symbol = '%'
  · obtain rfl := percent
    have notDigits := alone rfl
    match rest with
    | [] => rfl
    | [_] => rfl
    | high :: low :: others =>
      rw [percentDecode]
      cases highDigit : Bytes.Hex.value? high with
      | none => rfl
      | some highNumber =>
        cases lowDigit : Bytes.Hex.value? low with
        | none => rfl
        | some lowNumber => simp [opensDigits, highDigit, lowDigit] at notDigits
  · rw [percentDecode]
    rintro high low other rfl
    exact absurd rfl percent

/-- A text is read from the left: a spelled octet or else one character. -/
@[elab_as_elim]
theorem percentDecode_induction {motive : List Char → Prop} (empty : motive [])
    (plain : ∀ symbol rest, (symbol = '%' → opensDigits rest = false) → motive rest →
      motive (symbol :: rest))
    (spelled : ∀ high low rest highNumber lowNumber,
      Bytes.Hex.value? high = some highNumber → Bytes.Hex.value? low = some lowNumber →
        motive rest → motive ('%' :: high :: low :: rest))
    (symbols : List Char) : motive symbols := by
  fun_induction percentDecode symbols with
  | case1 high low rest highNumber lowNumber lowDigit highDigit inductionHypothesis =>
    exact spelled high low rest _ _ highDigit lowDigit inductionHypothesis
  | case2 high low rest notDigits inductionHypothesis =>
    apply plain _ _ _ inductionHypothesis
    intro _
    cases highDigit : Bytes.Hex.value? high with
    | none => simp [opensDigits, highDigit]
    | some highNumber =>
      cases lowDigit : Bytes.Hex.value? low with
      | none => simp [opensDigits, lowDigit]
      | some lowNumber => exact absurd lowDigit (notDigits _ _ highDigit)
  | case3 symbol rest notSpelled inductionHypothesis =>
    apply plain _ _ _ inductionHypothesis
    rintro rfl
    match rest with
    | [] => rfl
    | [_] => rfl
    | high :: low :: others => exact absurd rfl (notSpelled high low others rfl)
  | case4 => exact empty

/-! ## Digits -/

/-- A character that a path cannot hold is no digit. -/
theorem value?_of_escaped (escaped : isEscapedInPath symbol = true) :
    Bytes.Hex.value? symbol = none := by
  unfold isEscapedInPath at escaped
  rcases Bool.or_eq_true _ _ ▸ escaped with unprintable | listed
  · have bounds : symbol.toNat < 0x20 ∨ 0x7f ≤ symbol.toNat := by
      simpa [isUnprintable] using unprintable
    have notDigit : ¬ ('0' ≤ symbol ∧ symbol ≤ '9') := by
      simp only [Char.le_def, UInt32.le_iff_toNat_le]
      intro between
      have : 48 ≤ symbol.toNat ∧ symbol.toNat ≤ 57 := between
      omega
    have notLower : ¬ ('a' ≤ symbol ∧ symbol ≤ 'f') := by
      simp only [Char.le_def, UInt32.le_iff_toNat_le]
      intro between
      have : 97 ≤ symbol.toNat ∧ symbol.toNat ≤ 102 := between
      omega
    have notUpper : ¬ ('A' ≤ symbol ∧ symbol ≤ 'F') := by
      simp only [Char.le_def, UInt32.le_iff_toNat_le]
      intro between
      have : 65 ≤ symbol.toNat ∧ symbol.toNat ≤ 70 := between
      omega
    unfold Bytes.Hex.value?
    rw [if_neg notDigit, if_neg notLower, if_neg notUpper]
  · have everyMark : ∀ mark ∈ " \"<>`#?\x7b\x7d".toList, Bytes.Hex.value? mark = none := by
      decide
    exact everyMark symbol (List.contains_iff_mem.mp listed)

theorem not_escaped_percent : isEscapedInPath '%' = false := by decide

theorem value?_upperDigit {number : Nat} (small : number < 16) :
    Bytes.Hex.value? (upperDigit number) = some number := by
  have everyNumber : ∀ candidate ∈ List.range 16,
      Bytes.Hex.value? (upperDigit candidate) = some candidate := by decide
  exact everyNumber number (List.mem_range.mpr small)

private theorem percentDecode_percentOctet (octet : UInt8) (rest : List Char) :
    percentDecode (percentOctet octet ++ rest) = octet :: percentDecode rest := by
  have bound := octet.toNat_lt
  have highDigit := value?_upperDigit (show octet.toNat / 16 < 16 by omega)
  have lowDigit := value?_upperDigit (show octet.toNat % 16 < 16 by omega)
  have whole : UInt8.ofNat (octet.toNat / 16 * 16 + octet.toNat % 16) = octet := by
    rw [Nat.div_add_mod' octet.toNat 16]
    exact UInt8.ofNat_toNat
  show percentDecode ('%' :: upperDigit (octet.toNat / 16) ::
    upperDigit (octet.toNat % 16) :: rest) = _
  rw [percentDecode_spelled highDigit lowDigit, whole]

private theorem percentDecode_flatMap_percentOctet (octets : Bytes) (rest : List Char) :
    percentDecode (octets.flatMap percentOctet ++ rest) = octets ++ percentDecode rest := by
  induction octets with
  | nil => rfl
  | cons octet others inductionHypothesis =>
    rw [List.flatMap_cons, List.append_assoc, percentDecode_percentOctet, inductionHypothesis,
      List.cons_append]

/-! ## Escaping -/

variable {isEscaped : Char → Bool}

theorem percentEncode_cons_of_kept (kept : isEscaped symbol = false) (rest : List Char) :
    percentEncode isEscaped (symbol :: rest) = symbol :: percentEncode isEscaped rest := by
  simp [percentEncode, kept]

private theorem percentEncode_cons_of_escaped (escaped : isEscaped symbol = true)
    (rest : List Char) :
    percentEncode isEscaped (symbol :: rest) =
      (String.utf8EncodeChar symbol).flatMap percentOctet ++ percentEncode isEscaped rest := by
  simp [percentEncode, escaped]

/-- An escaped text begins with a percent sign. -/
theorem exists_percentEncode_cons (escaped : isEscaped symbol = true) (rest : List Char) :
    ∃ others, percentEncode isEscaped (symbol :: rest) = '%' :: others := by
  rw [percentEncode_cons_of_escaped escaped]
  obtain ⟨octet, octets, spelled⟩ :=
    List.exists_cons_of_ne_nil (String.utf8EncodeChar_ne_nil (c := symbol))
  rw [spelled]
  exact ⟨_, rfl⟩

/-- Escaping neither makes digits nor removes any. -/
theorem opensDigits_percentEncode (symbols : List Char) :
    opensDigits (percentEncode isEscapedInPath symbols) = opensDigits symbols := by
  have notDigit : Bytes.Hex.value? '%' = none := by decide
  match symbols with
  | [] => rfl
  | [first] =>
    cases escaped : isEscapedInPath first with
    | false =>
      rw [percentEncode_cons_of_kept escaped]
      rfl
    | true =>
      obtain ⟨others, spelled⟩ := exists_percentEncode_cons escaped []
      rw [spelled]
      cases others with
      | nil => rfl
      | cons next _ => simp [opensDigits, notDigit]
  | first :: second :: rest =>
    cases escaped : isEscapedInPath first with
    | true =>
      obtain ⟨others, spelled⟩ := exists_percentEncode_cons escaped (second :: rest)
      rw [spelled]
      cases others with
      | nil => simp [opensDigits, value?_of_escaped escaped]
      | cons next _ => simp [opensDigits, notDigit, value?_of_escaped escaped]
    | false =>
      rw [percentEncode_cons_of_kept escaped]
      cases escapedNext : isEscapedInPath second with
      | true =>
        obtain ⟨others, spelled⟩ := exists_percentEncode_cons escapedNext rest
        rw [spelled]
        simp [opensDigits, notDigit, value?_of_escaped escapedNext]
      | false =>
        rw [percentEncode_cons_of_kept escapedNext]
        rfl

/-- A digit is kept. -/
theorem kept_of_value? {number : Nat} (digit : Bytes.Hex.value? symbol = some number) :
    isEscapedInPath symbol = false := by
  cases escaped : isEscapedInPath symbol with
  | false => rfl
  | true =>
    rw [value?_of_escaped escaped] at digit
    exact absurd digit (by simp)

/-- Escaping does not change what a text stands for. -/
theorem percentDecode_percentEncode (symbols : List Char) :
    percentDecode (percentEncode isEscapedInPath symbols) = percentDecode symbols := by
  induction symbols using percentDecode_induction with
  | empty => rfl
  | plain symbol rest alone inductionHypothesis =>
    rw [percentDecode_cons alone]
    cases escaped : isEscapedInPath symbol with
    | true =>
      rw [percentEncode_cons_of_escaped escaped, percentDecode_flatMap_percentOctet,
        inductionHypothesis]
    | false =>
      rw [percentEncode_cons_of_kept escaped, percentDecode_cons, inductionHypothesis]
      intro percent
      rw [opensDigits_percentEncode]
      exact alone percent
  | spelled high low rest highNumber lowNumber highDigit lowDigit inductionHypothesis =>
    rw [percentEncode_cons_of_kept not_escaped_percent,
      percentEncode_cons_of_kept (kept_of_value? highDigit),
      percentEncode_cons_of_kept (kept_of_value? lowDigit),
      percentDecode_spelled highDigit lowDigit, percentDecode_spelled highDigit lowDigit,
      inductionHypothesis]

/-! ## Lengths -/

theorem length_percentDecode_le (symbols : List Char) :
    (percentDecode symbols).length ≤ (Text.Utf8.encodeSymbols symbols).length := by
  induction symbols using percentDecode_induction with
  | empty => exact Nat.le_refl 0
  | plain symbol rest alone inductionHypothesis =>
    rw [percentDecode_cons alone, Text.Utf8.encodeSymbols_cons, List.length_append,
      List.length_append]
    omega
  | spelled high low rest highNumber lowNumber highDigit lowDigit inductionHypothesis =>
    rw [percentDecode_spelled highDigit lowDigit]
    simp only [Text.Utf8.encodeSymbols_cons, List.length_append, List.length_cons]
    have atPercent := Text.Utf8.length_encodeChar_pos '%'
    omega

/-- A text that stands for as many octets as it has itself stands for itself. -/
theorem percentDecode_eq_of_length
    (same : (percentDecode symbols).length = (Text.Utf8.encodeSymbols symbols).length) :
    percentDecode symbols = Text.Utf8.encodeSymbols symbols := by
  induction symbols using percentDecode_induction with
  | empty => rfl
  | plain symbol rest alone inductionHypothesis =>
    rw [percentDecode_cons alone, Text.Utf8.encodeSymbols_cons] at same ⊢
    rw [List.length_append, List.length_append] at same
    rw [inductionHypothesis (Nat.add_left_cancel same)]
  | spelled high low rest highNumber lowNumber highDigit lowDigit inductionHypothesis =>
    -- Three characters that spell one octet make the text longer.
    rw [percentDecode_spelled highDigit lowDigit] at same
    simp only [Text.Utf8.encodeSymbols_cons, List.length_append, List.length_cons] at same
    have atPercent := Text.Utf8.length_encodeChar_pos '%'
    have atHigh := Text.Utf8.length_encodeChar_pos high
    have bound := length_percentDecode_le rest
    omega

/-! ## Slashes -/

private theorem opensDigits_append_slash (symbols rest : List Char) :
    opensDigits (symbols ++ '/' :: rest) = opensDigits symbols := by
  have notDigit : Bytes.Hex.value? '/' = none := by decide
  match symbols with
  | [] => cases rest <;> simp [opensDigits, notDigit]
  | [_] => simp [opensDigits, notDigit]
  | _ :: _ :: _ => rfl

/-- No octet is spelled across a slash. -/
theorem percentDecode_append_slash (symbols rest : List Char) :
    percentDecode (symbols ++ '/' :: rest) =
      percentDecode symbols ++ 0x2f :: percentDecode rest := by
  induction symbols using percentDecode_induction with
  | empty =>
    rw [List.nil_append, percentDecode_cons (by simp)]
    rfl
  | plain symbol others alone inductionHypothesis =>
    rw [List.cons_append, percentDecode_cons alone, percentDecode_cons, inductionHypothesis,
      List.append_assoc]
    intro percent
    rw [opensDigits_append_slash]
    exact alone percent
  | spelled high low others highNumber lowNumber highDigit lowDigit inductionHypothesis =>
    rw [percentDecode_spelled highDigit lowDigit, List.cons_append, List.cons_append,
      List.cons_append, percentDecode_spelled highDigit lowDigit, inductionHypothesis,
      List.cons_append]

end ContentStore.Url
