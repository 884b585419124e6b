import ContentStore.Calendar.Reading
import ContentStore.Proofs.Text.Decimal
import Mathlib.Data.List.Basic

/-!
Contract: the parts of a date as they are written and read.

Owns:
- that numbers of a fixed width, years, names and offsets are read from what is
  written for them, whatever follows;
- the lemmas on `step`, by which an item of a pattern takes its part off the text
  and sets a field that is not set yet.

Does not own: what the fields determine.
-/

namespace ContentStore.Calendar.Reading

open ContentStore.Text (isBlank)
open Instant (writeOffset)
open Text.Decimal (Spells digitValue isDigit not_isBlank_of_isDigit pad)

variable {digits rest symbols : List Char} {number total width : Nat} {symbol : Char}
  {fields : Fields}

/-! ## Digits -/

/-- Digits are read up to the limit of their number, or without a limit to what
follows them, if what they stand for is below 2^63. -/
theorem readDigits_append (all_digits : ∀ symbol ∈ digits, isDigit symbol = true)
    (small : digits.foldl (fun total symbol => total * 10 + digitValue symbol) total <
      9223372036854775808) {limit : Option Nat}
    (ends : limit = some digits.length ∨
      limit = none ∧ ∀ symbol ∈ rest.head?, isDigit symbol = false) :
    readDigits limit total (digits ++ rest) =
      .ok (digits.foldl (fun total symbol => total * 10 + digitValue symbol) total, rest) := by
  induction digits generalizing total limit with
  | nil =>
    rcases ends with rfl | ⟨rfl, visible⟩
    · exact readDigits.eq_1 total _
    · cases rest with
      | nil => simp [readDigits]
      | cons first more => simp [readDigits, visible first rfl]
  | cons symbol digits inductionHypothesis =>
    rw [List.foldl_cons] at small ⊢
    have below : total * 10 + digitValue symbol < 9223372036854775808 :=
      Nat.lt_of_le_of_lt (Text.Decimal.le_foldl_digitValue digits _) small
    have isDigit := all_digits symbol List.mem_cons_self
    have endsLater : limit.map (· - 1) = some digits.length ∨
        limit.map (· - 1) = none ∧ ∀ symbol ∈ rest.head?, Text.Decimal.isDigit symbol = false := by
      rcases ends with rfl | ⟨rfl, visible⟩
      · exact Or.inl rfl
      · exact Or.inr ⟨rfl, visible⟩
    have later := inductionHypothesis
      (fun other member => all_digits other (List.mem_cons_of_mem _ member)) small endsLater
    have some_left : limit ≠ some 0 := by
      rcases ends with rfl | ⟨rfl, _⟩ <;> simp
    rw [List.cons_append, readDigits.eq_3 _ _ _ _ (fun void => some_left void)]
    simp only [isDigit, if_true, if_pos below]
    exact later

/-- Digits are read as the number that they spell. -/
theorem readNumber_append (spells : Spells digits number) (small : number < 9223372036854775808)
    {limit : Option Nat}
    (ends : limit = some digits.length ∨
      limit = none ∧ ∀ symbol ∈ rest.head?, isDigit symbol = false) :
    readNumber limit (digits ++ rest) = .ok (number, rest) := by
  obtain ⟨first, more, rfl⟩ := List.exists_cons_of_ne_nil spells.some_digit
  have value := spells.value_eq
  unfold Text.Decimal.value at value
  have read := readDigits_append spells.all_digits (by rw [value]; exact small) ends
  rw [value] at read
  rw [List.cons_append] at read ⊢
  unfold readNumber
  simp only [spells.all_digits first List.mem_cons_self, if_true, read]

/-- A number that is filled up to a width is read in this width. -/
theorem readNumber_pad (small : number < Nat.pow 10 width) (some_width : 1 ≤ width) (narrow : width ≤ 18)
    (rest : List Char) : readNumber (some width) (pad width number ++ rest) = .ok (number, rest) := by
  have length := Text.Decimal.length_pad small some_width
  apply readNumber_append (Text.Decimal.spells_pad width number)
  · calc number < Nat.pow 10 width := small
      _ ≤ Nat.pow 10 18 := Nat.pow_le_pow_right (by decide) narrow
      _ < 9223372036854775808 := by decide
  · rw [length]
    exact Or.inl rfl

theorem exists_pad_cons (width number : Nat) :
    ∃ first more, pad width number = first :: more ∧ isDigit first = true := by
  have spells := Text.Decimal.spells_pad width number
  obtain ⟨first, more, same⟩ := List.exists_cons_of_ne_nil spells.some_digit
  exact ⟨first, more, same, spells.all_digits first (same ▸ List.mem_cons_self)⟩

/-- No blanks are dropped in front of a number. -/
theorem dropWhile_pad (width number : Nat) (rest : List Char) :
    (pad width number ++ rest).dropWhile isBlank = pad width number ++ rest := by
  obtain ⟨first, more, same, digit⟩ := exists_pad_cons width number
  rw [same, List.cons_append]
  exact List.dropWhile_cons_of_neg (by simp [not_isBlank_of_isDigit digit])

/-! ## Numbers of fields -/

/-- A number that is filled up begins with a digit, and thus has no sign. -/
theorem readField_pad {field : Field} (isWidth : fieldWidth field = some width)
    (small : number < Nat.pow 10 width) (some_width : 1 ≤ width) (narrow : width ≤ 18)
    (rest : List Char) :
    readField field (pad width number ++ rest) = .ok ((number : Int), rest) := by
  have read := readNumber_pad small some_width narrow rest
  obtain ⟨first, more, same, digit⟩ := exists_pad_cons width number
  have notMinus : first ≠ '-' := by
    rintro rfl
    exact absurd digit (by decide)
  have notPlus : first ≠ '+' := by
    rintro rfl
    exact absurd digit (by decide)
  unfold readField
  rw [dropWhile_pad]
  rw [same, List.cons_append] at read ⊢
  split
  · rename_i _ begun
    exact absurd (List.cons.inj begun).1 notMinus
  · rename_i _ begun
    exact absurd (List.cons.inj begun).1 notPlus
  · simp only [isWidth, read, bind, Except.bind]
    rfl

private theorem readField_minus {symbols : List Char}
    (read : readNumber none symbols = .ok (number, rest)) :
    readField .year ('-' :: symbols) = .ok (-(number : Int), rest) := by
  have visible : ¬ isBlank '-' = true := by decide
  unfold readField
  rw [List.dropWhile_cons_of_neg visible]
  simp only [isSigned, read, bind, Except.bind]
  rfl

private theorem readField_plus {symbols : List Char}
    (read : readNumber none symbols = .ok (number, rest)) :
    readField .year ('+' :: symbols) = .ok ((number : Int), rest) := by
  have visible : ¬ isBlank '+' = true := by decide
  unfold readField
  rw [List.dropWhile_cons_of_neg visible]
  simp only [isSigned, read, bind, Except.bind]
  rfl

/-- A year is read from its four digits, or with a sign from as many as it has. -/
theorem readField_year {year : Int} (small : year.natAbs < 9223372036854775808)
    (ends : ∀ symbol ∈ rest.head?, isDigit symbol = false) :
    readField .year (writeYear year ++ rest) = .ok (year, rest) := by
  have read : readNumber none (pad 4 year.natAbs ++ rest) = .ok (year.natAbs, rest) :=
    readNumber_append (Text.Decimal.spells_pad 4 year.natAbs) small (Or.inr ⟨rfl, ends⟩)
  unfold writeYear
  split
  · rename_i inside
    have below : year.toNat < 10000 := by omega
    have isNumber : (year.toNat : Int) = year := by omega
    rw [readField_pad rfl below (by decide) (by decide), isNumber]
  · rename_i outside
    by_cases negative : year < 0
    · have isNumber : -(year.natAbs : Int) = year := by omega
      rw [if_pos negative, List.cons_append, readField_minus read, isNumber]
    · have isNumber : (year.natAbs : Int) = year := by omega
      rw [if_neg negative, List.cons_append, readField_plus read, isNumber]

/-! ## Names -/

private theorem length_le_octetCount (symbols : List Char) :
    symbols.length ≤ octetCount symbols := by
  have grows (symbols : List Char) (count : Nat) : count + symbols.length ≤
      symbols.foldl (fun count symbol => count + symbol.utf8Size) count := by
    induction symbols generalizing count with
    | nil => exact Nat.le_refl _
    | cons symbol rest inductionHypothesis =>
      have positive := symbol.utf8Size_pos
      have later := inductionHypothesis (count + symbol.utf8Size)
      rw [List.foldl_cons, List.length_cons]
      omega
  have whole := grows symbols 0
  unfold octetCount
  omega

/-- A name is read from its first three letters. -/
theorem readName_append {names : List String} {abbreviation : List Char} {index : Nat}
    (three : abbreviation.length = 3)
    (found : (names.findIdx? fun name =>
      (name.toList.take 3).map lower = abbreviation.map lower) = some index)
    (rest : List Char) : readName names false (abbreviation ++ rest) = .ok (index, rest) := by
  have long : ¬ octetCount (abbreviation ++ rest) < 3 := by
    have atLeast := length_le_octetCount (abbreviation ++ rest)
    rw [List.length_append, three] at atLeast
    omega
  have front : (abbreviation ++ rest).take 3 = abbreviation := by
    rw [← three, List.take_left]
  have back : (abbreviation ++ rest).drop 3 = rest := by
    rw [← three, List.drop_left]
  have read : readAbbreviation names (abbreviation ++ rest) = .ok (index, rest) := by
    unfold readAbbreviation
    rw [if_neg long, front, back]
    simp only [found]
  unfold readName
  rw [read]
  rfl

theorem length_weekdayAbbreviation (weekday : Weekday) :
    (weekdayAbbreviation weekday).length = 3 := by
  cases weekday <;> decide

private theorem readName_weekday (weekday : Weekday) (rest : List Char) :
    readName weekdayNames false (weekdayAbbreviation weekday ++ rest) =
      .ok (weekday.index, rest) := by
  apply readName_append (length_weekdayAbbreviation weekday)
  cases weekday <;> decide

private theorem readName_month {month : Nat} (low : 1 ≤ month) (high : month ≤ 12)
    (rest : List Char) :
    readName monthNames false (monthAbbreviation month ++ rest) = .ok (month - 1, rest) := by
  have all : ∀ index < 12, (monthAbbreviation (index + 1)).length = 3 ∧
      (monthNames.findIdx? fun name => (name.toList.take 3).map lower =
        (monthAbbreviation (index + 1)).map lower) = some index := by decide
  obtain ⟨three, found⟩ := all (month - 1) (by omega)
  rw [Nat.sub_add_cancel low] at three found
  exact readName_append three found rest

/-! ## Offsets -/

private theorem readTwoDigits_pad (small : number < 100) (rest : List Char) :
    readTwoDigits (pad 2 number ++ rest) = .ok (number, rest) := by
  have spells := Text.Decimal.spells_pad 2 number
  have length : (pad 2 number).length = 2 := Text.Decimal.length_pad small (by decide)
  obtain ⟨first, second, same⟩ := List.length_eq_two.mp length
  rw [same] at spells ⊢
  have long : ¬ octetCount ([first, second] ++ rest) < 2 := by
    have atLeast := length_le_octetCount ([first, second] ++ rest)
    rw [List.length_append] at atLeast
    exact Nat.not_lt.mpr (Nat.le_trans (Nat.le_add_right 2 _) atLeast)
  have bothDigits : isDigit first = true ∧ isDigit second = true :=
    ⟨spells.all_digits first (by simp), spells.all_digits second (by simp)⟩
  unfold readTwoDigits
  rw [if_neg long]
  simp only [List.cons_append, List.nil_append, if_pos bothDigits, spells.value_eq]

/-- An offset of less than a day is read as its seconds. -/
theorem readOffset_writeOffset {minutes : Int} (small : minutes.natAbs < 1440) (rest : List Char) :
    readOffset false (writeOffset minutes ++ rest) = .ok (60 * minutes, rest) := by
  have hours := readTwoDigits_pad (show minutes.natAbs / 60 < 100 by omega)
    (pad 2 (minutes.natAbs % 60) ++ rest)
  have remainder := readTwoDigits_pad (show minutes.natAbs % 60 < 100 by omega) rest
  have joined : (pad 2 (minutes.natAbs % 60) ++ rest).dropWhile
      (fun symbol => symbol == ':' || isBlank symbol) = pad 2 (minutes.natAbs % 60) ++ rest := by
    obtain ⟨first, more, same, digit⟩ := exists_pad_cons 2 (minutes.natAbs % 60)
    have notColon : first ≠ ':' := by
      rintro rfl
      exact absurd digit (by decide)
    rw [same, List.cons_append]
    exact List.dropWhile_cons_of_neg (by simp [notColon, not_isBlank_of_isDigit digit])
  have whole : ¬ 60 ≤ minutes.natAbs % 60 := by omega
  unfold writeOffset readOffset
  by_cases negative : minutes < 0
  · have seconds : (-1 : Int) * (((minutes.natAbs / 60 : Nat) : Int) * 3600 +
        ((minutes.natAbs % 60 : Nat) : Int) * 60) = 60 * minutes := by omega
    simp only [if_pos negative, List.cons_append, List.append_assoc, readSign, bind, Except.bind,
      hours, joined, remainder, whole, if_false, pure, Except.pure]
    rw [seconds]
  · have seconds : (1 : Int) * (((minutes.natAbs / 60 : Nat) : Int) * 3600 +
        ((minutes.natAbs % 60 : Nat) : Int) * 60) = 60 * minutes := by omega
    simp only [if_neg negative, List.cons_append, List.append_assoc, readSign, bind, Except.bind,
      hours, joined, remainder, whole, if_false, pure, Except.pure]
    rw [seconds]

/-! ## Items of patterns -/

private theorem octetCount_le_append (front back : List Char) :
    octetCount front ≤ octetCount (front ++ back) := by
  have grows (symbols : List Char) (count : Nat) : count ≤
      symbols.foldl (fun count symbol => count + symbol.utf8Size) count := by
    induction symbols generalizing count with
    | nil => exact Nat.le_refl _
    | cons symbol rest inductionHypothesis =>
      exact Nat.le_trans (Nat.le_add_right _ _) (inductionHypothesis _)
  unfold octetCount
  rw [List.foldl_append]
  exact grows back _

theorem step_literal (expected rest : List Char) (fields : Fields) :
    step (fields, expected ++ rest) (.literal expected) = .ok (fields, rest) := by
  have long := Nat.not_lt.mpr (octetCount_le_append expected rest)
  have begins : expected.isPrefixOf (expected ++ rest) = true :=
    List.isPrefixOf_iff_prefix.mpr (List.prefix_append _ _)
  have read : readLiteral expected (expected ++ rest) = .ok rest := by
    unfold readLiteral
    rw [if_neg long, if_pos begins, List.drop_left]
  simp only [step, readItem, read]
  rfl

theorem step_space (visible : ∀ symbol ∈ rest.head?, isBlank symbol = false) (fields : Fields) :
    step (fields, ' ' :: rest) .space = .ok (fields, rest) := by
  have blank : isBlank ' ' = true := by decide
  have dropped : (' ' :: rest).dropWhile isBlank = rest := by
    rw [List.dropWhile_cons_of_pos blank]
    cases rest with
    | nil => rfl
    | cons first more => exact List.dropWhile_cons_of_neg (by simp [visible first rfl])
  simp only [step, readItem, dropped]
  rfl

/-- A number in two digits sets its field. -/
theorem step_number {field : Field} {after : Fields} (isWidth : fieldWidth field = some 2)
    (small : number < 100) (set : fields.set field number = .ok after) (rest : List Char) :
    step (fields, pad 2 number ++ rest) (.number field) = .ok (after, rest) := by
  have read := readField_pad isWidth (show number < Nat.pow 10 2 from small) (by decide)
    (by decide) rest
  simp only [step, readItem, read, bind, Except.bind, set]
  rfl

private theorem within_natCast {low high : Int} (inside : low ≤ number ∧ number ≤ high) :
    Fields.within low high number = .ok number := by
  unfold Fields.within
  rw [if_pos inside, Int.toNat_natCast]

theorem step_day (unset : fields.day = none) (inside : 1 ≤ number ∧ number ≤ 31)
    (rest : List Char) :
    step (fields, pad 2 number ++ rest) (.number .day) =
      .ok ({ fields with day := some number }, rest) := by
  have set : fields.set .day number = .ok { fields with day := some number } := by
    simp only [Fields.set, within_natCast (show (1 : Int) ≤ number ∧ (number : Int) ≤ 31 by omega),
      unset, Fields.agree, bind, Except.bind, pure, Except.pure]
  exact step_number rfl (by omega) set rest

theorem step_hour (unset : fields.afterNoon = none ∧ fields.hourOfHalf = none)
    (small : number < 24) (rest : List Char) :
    step (fields, pad 2 number ++ rest) (.number .hour) =
      .ok ({ fields with
        afterNoon := some (decide (12 ≤ number)), hourOfHalf := some (number % 12) }, rest) := by
  have set : fields.set .hour number = .ok { fields with
      afterNoon := some (decide (12 ≤ number)), hourOfHalf := some (number % 12) } := by
    simp only [Fields.set, Fields.setHour,
      within_natCast (show (0 : Int) ≤ number ∧ (number : Int) ≤ 23 by omega),
      unset.1, unset.2, Fields.agree, bind, Except.bind, pure, Except.pure]
  exact step_number rfl (by omega) set rest

theorem step_minute (unset : fields.minute = none) (small : number < 60) (rest : List Char) :
    step (fields, pad 2 number ++ rest) (.number .minute) =
      .ok ({ fields with minute := some number }, rest) := by
  have set : fields.set .minute number = .ok { fields with minute := some number } := by
    simp only [Fields.set, within_natCast (show (0 : Int) ≤ number ∧ (number : Int) ≤ 59 by omega),
      unset, Fields.agree, bind, Except.bind, pure, Except.pure]
  exact step_number rfl (by omega) set rest

theorem step_second (unset : fields.second = none) (small : number ≤ 60) (rest : List Char) :
    step (fields, pad 2 number ++ rest) (.number .second) =
      .ok ({ fields with second := some number }, rest) := by
  have set : fields.set .second number = .ok { fields with second := some number } := by
    simp only [Fields.set, within_natCast (show (0 : Int) ≤ number ∧ (number : Int) ≤ 60 by omega),
      unset, Fields.agree, bind, Except.bind, pure, Except.pure]
  exact step_number rfl (by omega) set rest

theorem step_year {year : Int} (unset : fields.year = none)
    (inside : -2147483648 ≤ year ∧ year ≤ 2147483647)
    (ends : ∀ symbol ∈ rest.head?, isDigit symbol = false) :
    step (fields, writeYear year ++ rest) (.number .year) =
      .ok ({ fields with year := some year }, rest) := by
  have read := readField_year (show year.natAbs < 9223372036854775808 by omega) ends
  simp only [step, readItem, read, Fields.set, Fields.checkedYear, if_pos inside, unset,
    Fields.agree, bind, Except.bind, pure, Except.pure]

theorem step_month {month : Nat} (unset : fields.month = none) (low : 1 ≤ month)
    (high : month ≤ 12) (rest : List Char) :
    step (fields, monthAbbreviation month ++ rest) (.monthName false) =
      .ok ({ fields with month := some month }, rest) := by
  have number : ((month - 1 : Nat) : Int) + 1 = month := by omega
  simp only [step, readItem, readName_month low high, Fields.setMonth, number,
    within_natCast (show (1 : Int) ≤ month ∧ (month : Int) ≤ 12 by omega), unset, Fields.agree,
    bind, Except.bind, pure, Except.pure]

theorem step_weekday (unset : fields.weekday = none) (weekday : Weekday) (rest : List Char) :
    step (fields, weekdayAbbreviation weekday ++ rest) (.weekdayName false) =
      .ok ({ fields with weekday := some weekday }, rest) := by
  have named : Weekday.ofIndex weekday.index = weekday := by
    cases weekday <;> rfl
  simp only [step, readItem, readName_weekday, Fields.setWeekday, named, unset, Fields.agree,
    bind, Except.bind, pure, Except.pure]

theorem step_offset {minutes : Int} (unset : fields.offset = none)
    (small : minutes.natAbs < 1440) (rest : List Char) :
    step (fields, writeOffset minutes ++ rest) (.offset false) =
      .ok ({ fields with offset := some (60 * minutes) }, rest) := by
  have signed : isBlank (if minutes < 0 then '-' else '+') = false := by
    split <;> decide
  have kept : (writeOffset minutes ++ rest).dropWhile isBlank = writeOffset minutes ++ rest := by
    unfold writeOffset
    rw [List.cons_append]
    exact List.dropWhile_cons_of_neg (by simp [signed])
  simp only [step, readItem, kept, readOffset_writeOffset small, Fields.setOffset, unset,
    Fields.agree, bind, Except.bind, pure, Except.pure]

end ContentStore.Calendar.Reading
