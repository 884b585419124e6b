import ContentStore.ByteSize
import ContentStore.Proofs.Text.Utf8
import Mathlib.Data.List.Basic

/-!
Contract: which texts are byte counts.

Owns:
- how a spelling is taken apart from its end: first the letter `b`, then the
  unit;
- that a text is read as a count if and only if the grammar spells this count,
  and is refused otherwise.

Does not own: which spelling a count is given.
-/

namespace ContentStore.ByteSize

open Text.Decimal (isDigit value words64)

variable {symbols digits letters : List Char} {symbol : Char} {unit : ByteUnit}
  {count multiplier : Nat} {text : String}

/-! ## Letters -/

/-- The letters of the units, in both cases. -/
theorem mem_of_ofLetter? (named : ByteUnit.ofLetter? symbol = some unit) :
    symbol ∈ ['k', 'K', 'm', 'M', 'g', 'G'] := by
  unfold ByteUnit.ofLetter? at named
  split at named
  · rename_i isKilo
    rcases isKilo with rfl | rfl <;> decide
  · split at named
    · rename_i isMega
      rcases isMega with rfl | rfl <;> decide
    · split at named
      · rename_i isGiga
        rcases isGiga with rfl | rfl <;> decide
      · exact absurd named (by simp)

/-- A digit is neither a unit nor the letter `b`. -/
theorem ne_of_isDigit (digit : isDigit symbol = true) :
    ∀ letter ∈ ['k', 'K', 'm', 'M', 'g', 'G', 'b', 'B'], symbol ≠ letter := by
  rintro letter among rfl
  have noDigit : ∀ letter ∈ ['k', 'K', 'm', 'M', 'g', 'G', 'b', 'B'], isDigit letter = false := by
    decide
  rw [noDigit symbol among] at digit
  exact Bool.false_ne_true digit

private theorem ofLetter?_of_isDigit (digit : isDigit symbol = true) :
    ByteUnit.ofLetter? symbol = none := by
  cases named : ByteUnit.ofLetter? symbol with
  | none => rfl
  | some unit =>
    have isLetter := mem_of_ofLetter? named
    exact absurd rfl (ne_of_isDigit digit symbol (List.mem_append_left ['b', 'B'] isLetter))

/-- The letter of a unit is a single octet, so that it is an octet at the end
of the text that goes, and no part of another character. -/
theorem encodeChar_of_ofLetter? (named : ByteUnit.ofLetter? symbol = some unit) :
    (String.utf8EncodeChar symbol).length = 1 := by
  have single : ∀ letter ∈ ['k', 'K', 'm', 'M', 'g', 'G'],
      (String.utf8EncodeChar letter).length = 1 := by decide
  exact single symbol (mem_of_ofLetter? named)

/-! ## Taking a text apart -/

/-- What is taken off a text first is the letter `b`, or nothing. -/
theorem exists_byteLetter (symbols : List Char) :
    ∃ letters, ByteLetter letters ∧ symbols = withoutByteLetter symbols ++ letters := by
  unfold withoutByteLetter
  split
  · rename_i last
    exact ⟨['b'], .lower, (List.dropLast_append_getLast? 'b' last).symm⟩
  · rename_i last
    exact ⟨['B'], .upper, (List.dropLast_append_getLast? 'B' last).symm⟩
  · exact ⟨[], .none, (List.append_nil symbols).symm⟩

private theorem withoutByteLetter_append (isLetter : ByteLetter letters)
    (kept : ∀ symbol ∈ symbols.getLast?, symbol ≠ 'b' ∧ symbol ≠ 'B') :
    withoutByteLetter (symbols ++ letters) = symbols := by
  cases isLetter with
  | none =>
    rw [List.append_nil]
    unfold withoutByteLetter
    split
    · rename_i last
      exact absurd rfl (kept 'b' last).1
    · rename_i last
      exact absurd rfl (kept 'B' last).2
    · rfl
  | lower => simp [withoutByteLetter]
  | upper => simp [withoutByteLetter]

/-- What is taken off next is a unit, or nothing. -/
theorem exists_unitSpelling (symbols : List Char) :
    ∃ letters, UnitSpelling letters (splitUnit symbols).2 ∧
      symbols = (splitUnit symbols).1 ++ letters := by
  unfold splitUnit
  cases named : symbols.getLast?.bind ByteUnit.ofLetter? with
  | none => exact ⟨[], .none, (List.append_nil symbols).symm⟩
  | some unit =>
    obtain ⟨symbol, last, isUnit⟩ := Option.bind_eq_some_iff.mp named
    exact ⟨[symbol], .letter isUnit, (List.dropLast_append_getLast? symbol last).symm⟩

private theorem splitUnit_append (isUnit : UnitSpelling letters multiplier)
    (kept : ∀ symbol ∈ digits.getLast?, ByteUnit.ofLetter? symbol = none) :
    splitUnit (digits ++ letters) = (digits, multiplier) := by
  cases isUnit with
  | none =>
    have unnamed : digits.getLast?.bind ByteUnit.ofLetter? = none :=
      Option.bind_eq_none_iff.mpr kept
    rw [List.append_nil, splitUnit, unnamed]
  | letter named => simp [splitUnit, named]

/-- To drop the letter of a unit is to drop the last octet of a text. -/
theorem encodeSymbols_splitUnit (symbols : List Char) (named : (splitUnit symbols).2 ≠ 1) :
    Text.Utf8.encodeSymbols (splitUnit symbols).1 =
      (Text.Utf8.encodeSymbols symbols).dropLast := by
  obtain ⟨letters, isUnit, apart⟩ := exists_unitSpelling symbols
  generalize splitUnit symbols = split at isUnit apart named
  obtain ⟨digits, multiplier⟩ := split
  subst apart
  cases isUnit with
  | none => exact absurd rfl named
  | @letter symbol unit isLetter =>
    obtain ⟨octet, single⟩ := List.length_eq_one_iff.mp (encodeChar_of_ofLetter? isLetter)
    have octets : Text.Utf8.encodeSymbols [symbol] = [octet] := by
      rw [Text.Utf8.encodeSymbols_cons, single]
      rfl
    rw [Text.Utf8.encodeSymbols_append, octets, List.dropLast_concat]

/-! ## Reading -/

private theorem count?_eq_some_iff : count? digits multiplier = some count ↔
    (digits ≠ [] ∧ (∀ symbol ∈ digits, isDigit symbol = true) ∧
      value digits * multiplier < words64) ∧ value digits * multiplier = count := by
  unfold count?
  rw [Option.ite_none_right_eq_some, List.all_eq_true, Option.some.injEq]

/-- Reading finds the parts of a spelling. -/
theorem splitUnit_of_spells (spells : Spells symbols count) :
    ∃ digits multiplier, splitUnit (withoutByteLetter symbols) = (digits, multiplier) ∧
      count? digits multiplier = some count := by
  obtain @⟨digits, unit, letters, multiplier, some_digit, all_digits, isUnit, isLetter, small⟩ :=
    spells
  have lastDigit : ∀ symbol ∈ digits.getLast?, isDigit symbol = true :=
    fun symbol last => all_digits symbol (List.mem_of_getLast? last)
  have kept : ∀ symbol ∈ (digits ++ unit).getLast?, symbol ≠ 'b' ∧ symbol ≠ 'B' := by
    intro symbol last
    cases isUnit with
    | none =>
      rw [List.append_nil] at last
      have different := ne_of_isDigit (lastDigit symbol last)
      exact ⟨different 'b' (by decide), different 'B' (by decide)⟩
    | letter named =>
      rw [List.getLast?_concat] at last
      rw [← Option.some.inj last]
      have noUnit : ∀ letter ∈ ['k', 'K', 'm', 'M', 'g', 'G'], letter ≠ 'b' ∧ letter ≠ 'B' := by
        decide
      exact noUnit _ (mem_of_ofLetter? named)
  refine ⟨digits, multiplier, ?_, count?_eq_some_iff.mpr ⟨⟨some_digit, all_digits, small⟩, rfl⟩⟩
  rw [withoutByteLetter_append isLetter kept]
  exact splitUnit_append isUnit fun symbol last => ofLetter?_of_isDigit (lastDigit symbol last)

/-- What is read is a spelling of the count. -/
theorem spells_of_count?
    (read : count? (splitUnit (withoutByteLetter symbols)).1
      (splitUnit (withoutByteLetter symbols)).2 = some count) : Spells symbols count := by
  obtain ⟨letters, isLetter, whole⟩ := exists_byteLetter symbols
  obtain ⟨unit, isUnit, front⟩ := exists_unitSpelling (withoutByteLetter symbols)
  obtain ⟨⟨some_digit, all_digits, small⟩, rfl⟩ := count?_eq_some_iff.mp read
  have spelled := Spells.mk some_digit all_digits isUnit isLetter small
  rwa [← front, ← whole] at spelled

theorem parse_eq_ok_iff :
    parse text = .ok count ↔ Spells (Text.trim Text.isBlank text.toList) count := by
  constructor
  · intro read
    simp only [parse] at read
    split at read
    · rename_i found
      rw [← Except.ok.inj read]
      exact spells_of_count? found
    · exact absurd read (by simp)
  · intro spells
    obtain ⟨digits, multiplier, apart, found⟩ := splitUnit_of_spells spells
    simp only [parse, apart, found]

private theorem parse_eq_error_iff {failure : StoreError} :
    parse text = .error failure ↔
      failure = .invalidSize text ∧
        ∀ count, ¬ Spells (Text.trim Text.isBlank text.toList) count := by
  constructor
  · intro refused
    refine ⟨?_, ?_⟩
    · simp only [parse] at refused
      split at refused
      · exact absurd refused (by simp)
      · exact (Except.error.inj refused).symm
    · intro count spells
      rw [parse_eq_ok_iff.mpr spells] at refused
      exact absurd refused (by simp)
  · rintro ⟨rfl, unspelled⟩
    simp only [parse]
    split
    · rename_i count found
      exact absurd (spells_of_count? found) (unspelled count)
    · rfl

/-- A text is read as a count exactly if it spells the count, with white space
around it; any other text is refused, and quoted as it is.  The letter of the
unit that is dropped in between is one octet of the text. -/
theorem parse_accepts_exactly_the_spellings (text : String) :
    (∀ count, parse text = .ok count ↔ Spells (Text.trim Text.isBlank text.toList) count) ∧
    (∀ failure, parse text = .error failure ↔ failure = .invalidSize text ∧
      ∀ count, ¬ Spells (Text.trim Text.isBlank text.toList) count) ∧
    ∀ symbols, (splitUnit symbols).2 ≠ 1 →
      Text.Utf8.encodeSymbols (splitUnit symbols).1 =
        (Text.Utf8.encodeSymbols symbols).dropLast :=
  ⟨fun _ => parse_eq_ok_iff, fun _ => parse_eq_error_iff, encodeSymbols_splitUnit⟩

/-- On both sides of the limit: the largest number of kilobytes that is read, between blanks and
with a zero in front, and the next one. -/
theorem largest_kilobytes_are_read :
    (splitUnit "018014398509481983k".toList).2 ≠ 1 ∧
    Text.Utf8.encodeSymbols "018014398509481983".toList =
      (Text.Utf8.encodeSymbols "018014398509481983k".toList).dropLast ∧
    parse "\u3000 018014398509481983kB\n" = .ok 18446744073709550592 ∧
    parse "18014398509481984K" = .error (.invalidSize "18014398509481984K") := by
  have named : (splitUnit "018014398509481983k".toList).2 ≠ 1 := by decide +kernel
  have front : (splitUnit "018014398509481983k".toList).1 = "018014398509481983".toList := by
    decide +kernel
  have spells : Spells (Text.trim Text.isBlank "\u3000 018014398509481983kB\n".toList)
      18446744073709550592 := by
    have trimmed : Text.trim Text.isBlank "\u3000 018014398509481983kB\n".toList =
        "018014398509481983".toList ++ ['k'] ++ ['B'] := by decide +kernel
    have isKilo : ByteUnit.ofLetter? 'k' = some .kilo := by decide
    rw [trimmed]
    exact .mk (by decide +kernel) (by decide +kernel) (.letter isKilo) .upper (by decide +kernel)
  have unspelled : ∀ count,
      ¬ Spells (Text.trim Text.isBlank "18014398509481984K".toList) count := by
    intro count spells
    obtain ⟨digits, multiplier, apart, found⟩ := splitUnit_of_spells spells
    have parts : splitUnit (withoutByteLetter (Text.trim Text.isBlank
        "18014398509481984K".toList)) = ("18014398509481984".toList, 1024) := by decide +kernel
    have tooLarge : count? "18014398509481984".toList 1024 = none := by decide +kernel
    obtain ⟨rfl, rfl⟩ := Prod.mk.inj (parts.symm.trans apart)
    exact absurd (tooLarge.symm.trans found) (by simp)
  obtain ⟨reads, _, drops⟩ := parse_accepts_exactly_the_spellings
    "\u3000 018014398509481983kB\n"
  obtain ⟨_, refuses, _⟩ := parse_accepts_exactly_the_spellings "18014398509481984K"
  have dropped := drops _ named
  rw [front] at dropped
  exact ⟨named, dropped, (reads _).mpr spells, (refuses _).mpr ⟨rfl, unspelled⟩⟩

end ContentStore.ByteSize
