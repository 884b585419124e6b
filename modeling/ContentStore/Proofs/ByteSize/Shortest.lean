import ContentStore.Proofs.ByteSize
import ContentStore.Proofs.Text.Blank
import ContentStore.Proofs.Text.Decimal

/-!
Contract: the spelling that a byte count is given.

Owns:
- `WritesQuotient`, by which a count is written with the greatest multiplier that
  divides it;
- that what is written spells the count, and is no longer than any other spelling
  of it, in characters and in octets.

Does not own: which texts are byte counts.
-/

namespace ContentStore.ByteSize

open Text.Decimal (isDigit spells_write toNat_of_isDigit value words64 write)

variable {symbols letters others digits : List Char} {symbol : Char} {text : String}
  {count multiplier other exponent top : Nat}

/-! ## Multipliers -/

private theorem ofLetter?_letter (unit : ByteUnit) :
    ByteUnit.ofLetter? unit.letter = some unit := by
  cases unit <;> decide

/-- The multipliers are the first powers of 1024. -/
theorem UnitSpelling.exists_pow (isUnit : UnitSpelling letters multiplier) :
    ∃ exponent ≤ 3, multiplier = Nat.pow 1024 exponent := by
  cases isUnit with
  | none => exact ⟨0, by decide, rfl⟩
  | @letter symbol unit named =>
    cases unit with
    | kilo => exact ⟨1, by decide, rfl⟩
    | mega => exact ⟨2, by decide, rfl⟩
    | giga => exact ⟨3, by decide, rfl⟩

private theorem UnitSpelling.multiplier_pos (isUnit : UnitSpelling letters multiplier) :
    0 < multiplier := by
  obtain ⟨exponent, _, rfl⟩ := isUnit.exists_pow
  exact Nat.pow_pos (by decide)

/-- A multiplier that divides another is the same, or is less by a factor of 1024. -/
theorem UnitSpelling.eq_or_dvd (isUnit : UnitSpelling letters multiplier)
    (isOther : UnitSpelling others other) (divides : multiplier ∣ other) :
    multiplier = other ∨ multiplier * 1024 ∣ other := by
  obtain ⟨low, _, rfl⟩ := isUnit.exists_pow
  obtain ⟨high, _, rfl⟩ := isOther.exists_pow
  have ordered : low ≤ high := (Nat.pow_dvd_pow_iff_le_right (by decide)).mp divides
  rcases Nat.eq_or_lt_of_le ordered with rfl | less
  · exact Or.inl rfl
  · exact Or.inr (Nat.pow_dvd_pow 1024 less)

/-- Only a multiplier of one goes without a letter. -/
theorem UnitSpelling.length_eq (isUnit : UnitSpelling letters multiplier) :
    letters.length = if multiplier = 1 then 0 else 1 := by
  cases isUnit with
  | none => rfl
  | @letter symbol unit named => cases unit <;> rfl

private theorem UnitSpelling.length_le (isUnit : UnitSpelling letters multiplier) :
    letters.length ≤ 1 := by
  rw [isUnit.length_eq]
  split <;> decide

/-! ## What is written -/

/-- What is written of a count is its quotient by a multiplier, which is the greatest that
divides the count unless this is zero. -/
structure WritesQuotient (count : Nat) (letters : List Char) (multiplier : Nat) : Prop where
  isUnit : UnitSpelling letters multiplier
  divides : multiplier ∣ count
  written : (format count).toList = write (count / multiplier) ++ letters
  greatest : count ≠ 0 → ∀ {others other}, UnitSpelling others other → other ∣ count →
    other ∣ multiplier

/-- The greatest power that divides a count is the last, or the next one does not divide it. -/
theorem pow_dvd_pow_of_stops (stops : top = 3 ∨ ¬ Nat.pow 1024 (top + 1) ∣ count)
    (small : exponent ≤ 3) (divides : Nat.pow 1024 exponent ∣ count) :
    Nat.pow 1024 exponent ∣ Nat.pow 1024 top := by
  apply Nat.pow_dvd_pow
  by_contra larger
  rcases stops with rfl | stops
  · exact larger small
  · exact stops (Nat.dvd_trans (Nat.pow_dvd_pow 1024 (Nat.lt_of_not_le larger)) divides)

private theorem writesQuotient_of_stops (top : Nat)
    (isUnit : UnitSpelling letters (Nat.pow 1024 top))
    (divides : Nat.pow 1024 top ∣ count) (stops : top = 3 ∨ ¬ Nat.pow 1024 (top + 1) ∣ count)
    (written : (format count).toList = write (count / Nat.pow 1024 top) ++ letters) :
    WritesQuotient count letters (Nat.pow 1024 top) where
  isUnit := isUnit
  divides := divides
  written := written
  greatest := by
    intro _ others other isOther among
    obtain ⟨exponent, small, rfl⟩ := isOther.exists_pow
    exact pow_dvd_pow_of_stops stops small among

private theorem exists_writesQuotient (count : Nat) :
    ∃ letters multiplier, WritesQuotient count letters multiplier := by
  by_cases zero : count = 0
  · subst zero
    exact ⟨[], 1, .none, Nat.one_dvd 0, by decide +kernel, fun some_count => absurd rfl some_count⟩
  have lettered (unit : ByteUnit) : UnitSpelling [unit.letter] unit.bytes :=
    .letter (ofLetter?_letter unit)
  by_cases gigas : count % ByteUnit.giga.bytes = 0
  · refine ⟨_, _, writesQuotient_of_stops 3 (lettered .giga) (Nat.dvd_of_mod_eq_zero gigas)
      (Or.inl rfl) ?_⟩
    unfold format
    rw [if_neg zero, if_pos gigas, String.toList_ofList]
    rfl
  by_cases megas : count % ByteUnit.mega.bytes = 0
  · refine ⟨_, _, writesQuotient_of_stops 2 (lettered .mega) (Nat.dvd_of_mod_eq_zero megas)
      (Or.inr fun more => gigas (Nat.mod_eq_zero_of_dvd more)) ?_⟩
    unfold format
    rw [if_neg zero, if_neg gigas, if_pos megas, String.toList_ofList]
    rfl
  by_cases kilos : count % ByteUnit.kilo.bytes = 0
  · refine ⟨_, _, writesQuotient_of_stops 1 (lettered .kilo) (Nat.dvd_of_mod_eq_zero kilos)
      (Or.inr fun more => megas (Nat.mod_eq_zero_of_dvd more)) ?_⟩
    unfold format
    rw [if_neg zero, if_neg gigas, if_neg megas, if_pos kilos, String.toList_ofList]
    rfl
  · refine ⟨_, _, writesQuotient_of_stops 0 .none (Nat.one_dvd count)
      (Or.inr fun more => kilos (Nat.mod_eq_zero_of_dvd more)) ?_⟩
    unfold format
    rw [if_neg zero, if_neg gigas, if_neg megas, if_neg kilos, Text.Decimal.text,
      String.toList_ofList, List.append_nil, show Nat.pow 1024 0 = 1 from rfl, Nat.div_one]

private theorem Spells.lt_words (spells : Spells symbols count) : count < words64 := by
  obtain ⟨_, _, _, _, small⟩ := spells
  exact small

/-- What is written spells the count. -/
theorem spells_format (small : count < words64) : Spells (format count).toList count := by
  obtain ⟨letters, multiplier, isUnit, divides, written, _⟩ := exists_writesQuotient count
  obtain ⟨some_digit, all_digits, value_eq⟩ := spells_write (count / multiplier)
  have whole : value (write (count / multiplier)) * multiplier = count := by
    rw [value_eq, Nat.div_mul_cancel divides]
  have spelled := Spells.mk some_digit all_digits isUnit .none (whole.symm ▸ small)
  rw [whole, List.append_nil, ← written] at spelled
  exact spelled

/-! ## Characters of spellings -/

/-- A spelling holds no blanks, and each of its characters is one octet. -/
theorem Spells.visible (spells : Spells symbols count) : ∀ symbol ∈ symbols,
    Text.isBlank symbol = false ∧ (String.utf8EncodeChar symbol).length = 1 := by
  obtain @⟨digits, unit, letters, multiplier, _, all_digits, isUnit, isLetter, _⟩ := spells
  intro symbol member
  rcases List.mem_append.mp member with front | last
  · rcases List.mem_append.mp front with digit | named
    · have isDigit := all_digits symbol digit
      obtain ⟨_, high⟩ := toNat_of_isDigit isDigit
      refine ⟨Text.Decimal.not_isBlank_of_isDigit isDigit, ?_⟩
      rw [String.length_utf8EncodeChar, Char.utf8Size_eq_one_iff]
      exact Nat.le_trans high (by decide)
    · cases isUnit with
      | none => exact absurd named List.not_mem_nil
      | letter isUnit =>
        rw [List.mem_singleton.mp named]
        have visible : ∀ letter ∈ ['k', 'K', 'm', 'M', 'g', 'G'],
            Text.isBlank letter = false := by decide
        exact ⟨visible _ (mem_of_ofLetter? isUnit), encodeChar_of_ofLetter? isUnit⟩
  · have isB : symbol ∈ ['b', 'B'] := by
      cases isLetter with
      | none => exact absurd last List.not_mem_nil
      | lower => exact List.mem_cons.mpr (Or.inl (List.mem_singleton.mp last))
      | upper => exact List.mem_cons_of_mem _ last
    have both : ∀ letter ∈ ['b', 'B'], Text.isBlank letter = false ∧
        (String.utf8EncodeChar letter).length = 1 := by decide
    exact both symbol isB

private theorem Spells.trim_eq (spells : Spells symbols count) :
    Text.trim Text.isBlank symbols = symbols :=
  Text.trim_eq_self
    (fun symbol first => (spells.visible symbol (List.mem_of_head? first)).1)
    (fun symbol last => (spells.visible symbol (List.mem_of_getLast? last)).1)

private theorem Spells.octets_eq (spells : Spells symbols count) :
    (Text.Utf8.encodeSymbols symbols).length = symbols.length :=
  Text.Utf8.length_encodeSymbols fun symbol member => (spells.visible symbol member).2

private theorem parse_format (small : count < words64) : parse (format count) = .ok count := by
  have spells := spells_format small
  rw [parse_eq_ok_iff, spells.trim_eq]
  exact spells

/-! ## Lengths of spellings -/

/-- With a multiplier that is greater by a factor of 1024, less than a tenth of a number is
left. -/
theorem quotient_mul_ten_le {number : Nat} (positive : 0 < multiplier * number)
    (greater : multiplier * 1024 ∣ other) (divides : other ∣ multiplier * number) :
    1 ≤ multiplier * number / other ∧ multiplier * number / other * 10 ≤ number := by
  obtain ⟨factor, rfl⟩ := greater
  obtain ⟨quotient, product⟩ := divides
  have some_factor : 0 < factor * quotient := by
    apply Nat.pos_of_ne_zero
    intro none
    rw [Nat.mul_assoc, none, Nat.mul_zero] at product
    exact absurd product (Nat.ne_of_gt positive)
  have some_multiplier : 0 < multiplier := Nat.pos_of_mul_pos_right positive
  have number_eq : number = 1024 * factor * quotient := by
    apply Nat.eq_of_mul_eq_mul_left some_multiplier
    rw [product, ← Nat.mul_assoc, ← Nat.mul_assoc]
  have some_other : 0 < multiplier * 1024 * factor :=
    Nat.mul_pos (Nat.mul_pos some_multiplier (by decide)) (Nat.pos_of_mul_pos_right some_factor)
  rw [product, Nat.mul_div_cancel_left quotient some_other]
  refine ⟨Nat.pos_of_mul_pos_left some_factor, ?_⟩
  calc quotient * 10
      ≤ quotient * (1024 * factor) := Nat.mul_le_mul_left quotient (by
        have some_part : 1 ≤ factor := Nat.pos_of_mul_pos_right some_factor
        omega)
    _ = number := by rw [number_eq, Nat.mul_comm]

/-- No spelling of a count is shorter than the one that is written. -/
theorem Spells.length_format_le (spells : Spells symbols count) :
    (format count).toList.length ≤ symbols.length := by
  obtain @⟨digits, unit, byteLetter, multiplier, some_digit, all_digits, isUnit, _, _⟩ := spells
  have number : Text.Decimal.Spells digits (value digits) := ⟨some_digit, all_digits, rfl⟩
  have some_length : 1 ≤ digits.length := List.length_pos_iff.mpr some_digit
  rw [List.length_append, List.length_append]
  by_cases zero : value digits = 0
  · rw [zero, Nat.zero_mul]
    show 1 ≤ _
    omega
  have some_count : 0 < value digits * multiplier :=
    Nat.mul_pos (Nat.pos_of_ne_zero zero) isUnit.multiplier_pos
  obtain ⟨letters, best, isBest, divides, written, greatest⟩ :=
    exists_writesQuotient (value digits * multiplier)
  have smaller := greatest (Nat.ne_of_gt some_count) isUnit (Nat.dvd_mul_left _ _)
  rw [written, List.length_append]
  rcases isUnit.eq_or_dvd isBest smaller with rfl | greater
  · rw [Nat.mul_div_cancel _ isUnit.multiplier_pos, isUnit.length_eq, isBest.length_eq]
    have shortest := number.length_write_le
    omega
  · -- the letter of the greater unit is made up for by at least one digit
    rw [Nat.mul_comm] at some_count divides ⊢
    obtain ⟨some_quotient, less⟩ := quotient_mul_ten_le some_count greater divides
    have fewer := number.length_write_lt some_quotient less
    have letter := isBest.length_le
    omega

/-- Every count is read back from what is written for it, and of all texts that are read as the
count, blanks around them not counted, none is shorter. -/
theorem format_is_a_shortest_spelling :
    (∀ count < words64, parse (format count) = .ok count) ∧
    ∀ text count, parse text = .ok count →
      parse (format count) = .ok count ∧
      (format count).length ≤ (Text.trimmed text).length ∧
      (Text.Utf8.encode (format count)).length ≤
        (Text.Utf8.encode (Text.trimmed text)).length := by
  refine ⟨fun count small => parse_format small, ?_⟩
  intro text count read
  have spells := parse_eq_ok_iff.mp read
  have written := spells_format spells.lt_words
  have shorter := spells.length_format_le
  refine ⟨parse_format spells.lt_words, ?_, ?_⟩
  · rw [← String.length_toList, ← String.length_toList, Text.trimmed, String.toList_ofList]
    exact shorter
  · rw [Text.Utf8.encode, Text.Utf8.encode, Text.trimmed, String.toList_ofList, written.octets_eq,
      spells.octets_eq]
    exact shorter

/-- The greatest count of whole kilobytes, and a gigabyte that is spelled in kilobytes. -/
theorem gigabyte_is_spelled_shorter :
    parse (format 18446744073709550592) = .ok 18446744073709550592 ∧
    parse "\u3000 01048576kB\n" = .ok 1073741824 ∧
    format 1073741824 = "1G" ∧
    (format 1073741824).length ≤ (Text.trimmed "\u3000 01048576kB\n").length := by
  have read : parse "\u3000 01048576kB\n" = .ok 1073741824 := by decide +kernel
  obtain ⟨readsBack, isShortest⟩ := format_is_a_shortest_spelling
  exact ⟨readsBack _ (by decide), read, by decide +kernel, (isShortest _ _ read).2.1⟩

end ContentStore.ByteSize
