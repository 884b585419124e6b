import ContentStore.Proofs.Text.Decimal
import ContentStore.Proofs.Toml.Line
import ContentStore.Toml.Moment

/-!
Contract: integers of a document.

Owns:
- `Grouped`, digits with single underscores between them;
- `SpellsInteger`, all ways to write an integer: in decimal digits with or without a
  sign, or in the digits of three other bases behind their marks;
- that all of them are read as the integer, if it fits 64 bits and if a blank, a
  comment, a newline or nothing follows: none is taken for a date, a time of day or a
  floating-point number;
- `writeInteger`, which writes every integer in one of these ways.

Does not own: dates and floating-point numbers.
-/

namespace ContentStore.Toml

/-- Digits of a class, and how they are written with single underscores between
them. -/
inductive Grouped (isDigit : Char → Bool) : List Char → List Char → Prop where
  | last {symbol : Char} (digit : isDigit symbol = true) : Grouped isDigit [symbol] [symbol]
  | next {symbol : Char} {digits spelled : List Char} (digit : isDigit symbol = true)
      (rest : Grouped isDigit digits spelled) :
      Grouped isDigit (symbol :: digits) (symbol :: spelled)
  | apart {symbol : Char} {digits spelled : List Char} (digit : isDigit symbol = true)
      (rest : Grouped isDigit digits spelled) :
      Grouped isDigit (symbol :: digits) (symbol :: '_' :: spelled)

/-- The bases besides ten, each with its mark and its digits. -/
inductive Based : Char → Nat → (Char → Bool) → Prop where
  | hexadecimal : Based 'x' 16 fun symbol => (Bytes.Hex.value? symbol).isSome
  | octal : Based 'o' 8 (isDigitBelow 8)
  | binary : Based 'b' 2 (isDigitBelow 2)

/-- The ways to write an integer. -/
inductive SpellsInteger : Int → List Char → Prop where
  /-- Decimal digits, without a zero in front of others. -/
  | decimal {sign digits spelled : List Char} (signed : sign ∈ [[], ['+'], ['-']])
      (grouped : Grouped Text.Decimal.isDigit digits spelled)
      (short : digits.head? = some '0' → digits = ['0']) :
      SpellsInteger
        (if sign = ['-'] then -(Text.Decimal.value digits : Int) else Text.Decimal.value digits)
        (sign ++ spelled)
  | based {mark : Char} {base : Nat} {isDigit : Char → Bool} {digits spelled : List Char}
      (kind : Based mark base isDigit) (grouped : Grouped isDigit digits spelled) :
      SpellsInteger (numberOf base digits) ('0' :: mark :: spelled)

/-- An integer of 64 bits. -/
def Fits (number : Int) : Prop :=
  -9223372036854775808 ≤ number ∧ number ≤ 9223372036854775807

/-- Characters that are digits in no base. -/
def nondigits : List Char :=
  [' ', '\t', '#', '\n', '\r', '_', '-', ':']

variable {isDigit : Char → Bool} {digits spelled tail symbols : List Char} {number : Int}

/-! ## Groups of digits -/

private theorem Grouped.exists_head (grouped : Grouped isDigit digits spelled) :
    ∃ symbol others more, digits = symbol :: others ∧ spelled = symbol :: more ∧
      isDigit symbol = true := by
  cases grouped with
  | last digit | next digit | apart digit => exact ⟨_, _, _, rfl, rfl, digit⟩

private theorem Grouped.mem (grouped : Grouped isDigit digits spelled) :
    ∀ symbol ∈ spelled, isDigit symbol = true ∨ symbol = '_' := by
  induction grouped with
  | last digit => simpa using Or.inl digit
  | next digit _ inductionHypothesis =>
    exact List.forall_mem_cons.mpr ⟨Or.inl digit, inductionHypothesis⟩
  | apart digit _ inductionHypothesis =>
    exact List.forall_mem_cons.mpr
      ⟨Or.inl digit, List.forall_mem_cons.mpr ⟨Or.inr rfl, inductionHypothesis⟩⟩

private theorem readMoreDigits_cons {symbol : Char} (other : symbol ≠ '_') (rest : List Char) :
    readMoreDigits isDigit (symbol :: rest) =
      if isDigit symbol then
        (readMoreDigits isDigit rest).map fun (digits, rest) => (symbol :: digits, rest)
      else some ([], symbol :: rest) := by
  rw [readMoreDigits]
  · exact fun _ _ same _ => other same
  · exact fun same _ => other same

private theorem readMoreDigits_of_ends (apart : ∀ mark ∈ nondigits, isDigit mark = false)
    (ends : Ends tail) : readMoreDigits isDigit tail = some ([], tail) := by
  cases tail with
  | nil => rfl
  | cons symbol rest =>
    have listed := ends symbol rfl
    have everyMark : ∀ mark ∈ [' ', '\t', '#', '\n', '\r'], mark ≠ '_' ∧ mark ∈ nondigits := by
      decide
    obtain ⟨other, member⟩ := everyMark symbol listed
    rw [readMoreDigits_cons other, if_neg (by rw [apart symbol member]; exact Bool.false_ne_true)]

private theorem Grouped.readMoreDigits_append (apart : ∀ mark ∈ nondigits, isDigit mark = false)
    (grouped : Grouped isDigit digits spelled) (ends : Ends tail) :
    readMoreDigits isDigit (spelled ++ tail) = some (digits, tail) := by
  have plain {symbol : Char} (digit : isDigit symbol = true) : symbol ≠ '_' := by
    rintro rfl
    rw [apart '_' (by decide)] at digit
    exact Bool.false_ne_true digit
  induction grouped with
  | last digit =>
    rw [List.singleton_append, readMoreDigits_cons (plain digit), if_pos digit,
      readMoreDigits_of_ends apart ends]
    rfl
  | next digit _ inductionHypothesis =>
    rw [List.cons_append, readMoreDigits_cons (plain digit), if_pos digit, inductionHypothesis]
    rfl
  | apart digit rest inductionHypothesis =>
    obtain ⟨symbol, others, more, _, rfl, another⟩ := rest.exists_head
    rw [List.cons_append, readMoreDigits_cons (plain digit), if_pos digit, List.cons_append,
      List.cons_append, readMoreDigits, if_pos another]
    rw [List.cons_append, readMoreDigits_cons (plain another), if_pos another]
      at inductionHypothesis
    rw [inductionHypothesis]
    rfl

/-- Digits are read to the last one. -/
theorem Grouped.readDigits_append (apart : ∀ mark ∈ nondigits, isDigit mark = false)
    (grouped : Grouped isDigit digits spelled) (ends : Ends tail) :
    readDigits isDigit (spelled ++ tail) = some (digits, tail) := by
  have read := grouped.readMoreDigits_append apart ends
  obtain ⟨symbol, others, more, _, rfl, digit⟩ := grouped.exists_head
  have other : symbol ≠ '_' := by
    rintro rfl
    rw [apart '_' (by decide)] at digit
    exact Bool.false_ne_true digit
  rw [List.cons_append, readMoreDigits_cons other, if_pos digit] at read
  rw [List.cons_append, readDigits, if_pos digit, read]

/-! ## Neither dates nor floating-point numbers -/

private theorem readFixed_some {count value : Nat} {rest : List Char}
    (read : readFixed count symbols = some (value, rest)) :
    ∃ digits, symbols = digits ++ rest ∧ ∀ symbol ∈ digits, Text.Decimal.isDigit symbol = true := by
  unfold readFixed at read
  simp only at read
  split at read
  · rename_i counted
    obtain ⟨_, rfl⟩ := Prod.mk.inj (Option.some.inj read)
    exact ⟨symbols.take count, (List.take_append_drop count symbols).symm,
      List.all_eq_true.mp counted.2⟩
  · exact absurd read (by simp)

/-- What follows digits of a fixed number is what follows all digits, if it is none
itself. -/
theorem head_dropWhile_of_readFixed {count value : Nat} {mark : Char} {rest : List Char}
    (notDigit : Text.Decimal.isDigit mark = false)
    (read : readFixed count symbols = some (value, mark :: rest)) :
    (symbols.dropWhile Text.Decimal.isDigit).head? = some mark := by
  obtain ⟨digits, rfl, all_digits⟩ := readFixed_some read
  rw [List.dropWhile_append_of_pos all_digits, List.dropWhile_cons_of_neg (by simp [notDigit])]
  rfl

/-- Digits that neither a hyphen nor a colon follows begin no date and no time. -/
theorem readDate_eq_absent
    (unmarked : ∀ mark ∈ (symbols.dropWhile Text.Decimal.isDigit).head?, mark ≠ '-' ∧ mark ≠ ':') :
    readDate symbols = .absent := by
  have noDay : readDay symbols = .absent := by
    unfold readDay
    split
    · rename_i read
      exact absurd rfl (unmarked '-' (head_dropWhile_of_readFixed (by decide) read)).1
    · rfl
  have noTime : readTime symbols = .absent := by
    unfold readTime
    split
    · rename_i read
      exact absurd rfl (unmarked ':' (head_dropWhile_of_readFixed (by decide) read)).2
    · rfl
  unfold readDate
  rw [noDay]
  exact noTime

/-- No integer of digits and underscores begins a date or a time. -/
theorem readDate_append (inside : ∀ symbol ∈ spelled, symbol ≠ '-' ∧ symbol ≠ ':')
    (ends : Ends tail) : readDate (spelled ++ tail) = .absent := by
  apply readDate_eq_absent
  induction spelled with
  | nil =>
    cases tail with
    | nil => simp
    | cons symbol rest =>
      have everyEnd : ∀ symbol ∈ [' ', '\t', '#', '\n', '\r'],
          ¬ Text.Decimal.isDigit symbol = true ∧ symbol ≠ '-' ∧ symbol ≠ ':' := by
        decide
      obtain ⟨notDigit, other⟩ := everyEnd symbol (ends symbol rfl)
      rw [List.nil_append, List.dropWhile_cons_of_neg notDigit]
      intro mark first
      exact Option.some.inj first ▸ other
  | cons symbol rest inductionHypothesis =>
    obtain ⟨other, others⟩ := List.forall_mem_cons.mp inside
    rw [List.cons_append]
    by_cases digit : Text.Decimal.isDigit symbol = true
    · rw [List.dropWhile_cons_of_pos digit]
      exact inductionHypothesis others
    · rw [List.dropWhile_cons_of_neg digit]
      intro mark first
      exact Option.some.inj first ▸ other

private theorem Grouped.forall_ne (apart : ∀ mark ∈ nondigits, isDigit mark = false)
    (grouped : Grouped isDigit digits spelled) :
    ∀ symbol ∈ spelled, symbol ≠ '-' ∧ symbol ≠ ':' := by
  have neither {mark : Char} (listed : mark ∈ ['-', ':']) :
      ¬ (isDigit mark = true ∨ mark = '_') := by
    have everyMark : ∀ mark ∈ ['-', ':'], mark ∈ nondigits ∧ mark ≠ '_' := by decide
    obtain ⟨member, other⟩ := everyMark mark listed
    rw [apart mark member]
    simpa using other
  intro symbol member
  refine ⟨?_, ?_⟩ <;> rintro rfl
  · exact neither (by decide) (grouped.mem _ member)
  · exact neither (by decide) (grouped.mem _ member)

/-- What begins with no digit begins no date and no time. -/
theorem readDate_of_not_digit {symbol : Char} (notDigit : Text.Decimal.isDigit symbol = false)
    (rest : List Char) : readDate (symbol :: rest) = .absent := by
  have unread (count : Nat) : readFixed (count + 1) (symbol :: rest) = none := by
    unfold readFixed
    simp [notDigit]
  unfold readDate readDay readTime
  rw [unread 3, unread 1]

private theorem readFloatEnd_of_ends (ends : Ends tail) : readFloatEnd tail = .absent := by
  cases tail with
  | nil => rfl
  | cons symbol rest =>
    have listed := ends symbol rfl
    simp only [List.mem_cons, List.not_mem_nil, or_false] at listed
    rcases listed with rfl | rfl | rfl | rfl | rfl <;> rfl

/-- Digits with neither a point nor an exponent behind them are those of an
integer. -/
theorem readNumber_eq {sign unsigned : List Char} {first : Char}
    (signed : readSign symbols = (sign, unsigned)) (begins : unsigned.head? = some first)
    (digit : Text.Decimal.isDigit first = true) {rest : List Char}
    (read : readDecimalDigits unsigned = some (digits, rest))
    (whole : readFloatEnd rest = .absent) :
    readNumber symbols =
      (readInteger symbols).map fun (number, rest) => (.integer number, rest) := by
  unfold readNumber
  rw [signed]
  simp only
  split
  · rw [Option.some.inj begins.symm] at digit
    exact absurd digit (by decide)
  · rw [Option.some.inj begins.symm] at digit
    exact absurd digit (by decide)
  · rw [read]
    simp only [whole]

/-! ## Reading -/

private theorem checked_of_fits (fits : Fits number) : checked number = some number :=
  if_pos fits

private theorem readBased_append {base : Nat} (apart : ∀ mark ∈ nondigits, isDigit mark = false)
    (grouped : Grouped isDigit digits spelled) (fits : Fits (numberOf base digits))
    (ends : Ends tail) :
    readBased base isDigit (spelled ++ tail) = some ((numberOf base digits : Int), tail) := by
  unfold readBased
  rw [grouped.readDigits_append apart ends]
  show (checked (numberOf base digits)).bind _ = _
  rw [checked_of_fits fits]
  rfl

private theorem nondigits_decimal : ∀ mark ∈ nondigits, Text.Decimal.isDigit mark = false := by
  decide

private theorem Based.apart {mark : Char} {base : Nat} (kind : Based mark base isDigit) :
    ∀ mark ∈ nondigits, isDigit mark = false := by
  cases kind <;> decide

private theorem readDecimalDigits_append (grouped : Grouped Text.Decimal.isDigit digits spelled)
    (short : digits.head? = some '0' → digits = ['0']) (ends : Ends tail) :
    readDecimalDigits (spelled ++ tail) = some (digits, tail) := by
  have read := grouped.readDigits_append nondigits_decimal ends
  obtain ⟨symbol, others, more, spelledDigits, spelledMore, _⟩ := grouped.exists_head
  by_cases zero : symbol = '0'
  · -- a zero stands alone
    have alone : digits = ['0'] := short (by rw [spelledDigits, zero]; rfl)
    subst alone
    cases grouped with
    | last => rfl
    | next _ rest | apart _ rest =>
      obtain ⟨_, _, _, nothing, _⟩ := rest.exists_head
      exact absurd nothing (by simp)
  · rw [← read, spelledMore, List.cons_append, readDecimalDigits]
    intro rest same
    exact zero (List.cons.inj same).1

theorem isDigit_of_grouped (grouped : Grouped Text.Decimal.isDigit digits spelled) :
    ∃ symbol more, spelled = symbol :: more ∧ Text.Decimal.isDigit symbol = true := by
  obtain ⟨symbol, _, more, _, same, digit⟩ := grouped.exists_head
  exact ⟨symbol, more, same, digit⟩

private theorem readSign_append {sign : List Char} (signed : sign ∈ [[], ['+'], ['-']])
    (grouped : Grouped Text.Decimal.isDigit digits spelled) (tail : List Char) :
    readSign (sign ++ spelled ++ tail) = (sign, spelled ++ tail) := by
  obtain ⟨symbol, more, rfl, digit⟩ := isDigit_of_grouped grouped
  simp only [List.mem_cons, List.not_mem_nil, or_false] at signed
  rcases signed with rfl | rfl | rfl
  · show readSign (symbol :: (more ++ tail)) = _
    unfold readSign
    split
    · rename_i spelled
      rw [(List.cons.inj spelled).1] at digit
      exact absurd digit (by decide)
    · rename_i spelled
      rw [(List.cons.inj spelled).1] at digit
      exact absurd digit (by decide)
    · rfl
  · rfl
  · rfl

/-- No decimal digits are taken for those of another base. -/
theorem ne_based {sign : List Char} {mark : Char} (marked : mark ∈ ['x', 'o', 'b'])
    (signed : sign ∈ [[], ['+'], ['-']]) (grouped : Grouped Text.Decimal.isDigit digits spelled)
    (short : digits.head? = some '0' → digits = ['0']) (ends : Ends tail) (rest : List Char) :
    sign ++ spelled ++ tail ≠ '0' :: mark :: rest := by
  intro same
  have read := readDecimalDigits_append grouped short ends
  simp only [List.mem_cons, List.not_mem_nil, or_false] at signed
  rcases signed with rfl | rfl | rfl
  · -- a zero is all that is read, and a mark would end it
    rw [List.nil_append] at same
    rw [same] at read
    obtain ⟨_, rfl⟩ := Prod.mk.inj (Option.some.inj read)
    have everyMark : ∀ mark ∈ ['x', 'o', 'b'], mark ∉ [' ', '\t', '#', '\n', '\r'] := by decide
    exact everyMark mark marked (ends mark rfl)
  · exact absurd (List.cons.inj same).1 (by decide)
  · exact absurd (List.cons.inj same).1 (by decide)

/-- An integer is read as such. -/
theorem SpellsInteger.readInteger_append (spells : SpellsInteger number spelled)
    (fits : Fits number) (ends : Ends tail) :
    readInteger (spelled ++ tail) = some (number, tail) := by
  cases spells with
  | decimal signed grouped short =>
    unfold readInteger
    split
    · rename_i same
      exact absurd same (ne_based (by decide) signed grouped short ends _)
    · rename_i same
      exact absurd same (ne_based (by decide) signed grouped short ends _)
    · rename_i same
      exact absurd same (ne_based (by decide) signed grouped short ends _)
    · simp only [readSign_append signed grouped tail, readDecimalDigits_append grouped short ends,
        Option.bind_eq_bind, Option.bind_some, checked_of_fits fits]
      rfl
  | based kind grouped =>
    have read := readBased_append kind.apart grouped fits ends
    cases kind <;> exact read

/-- An integer is not taken for a floating-point number. -/
theorem SpellsInteger.readNumber_append (spells : SpellsInteger number spelled)
    (fits : Fits number) (ends : Ends tail) :
    readNumber (spelled ++ tail) = some (.integer number, tail) := by
  have read := spells.readInteger_append fits ends
  have whole : readNumber (spelled ++ tail) =
      (readInteger (spelled ++ tail)).map fun (number, rest) => (.integer number, rest) := by
    cases spells with
    | decimal signed grouped short =>
      obtain ⟨symbol, more, begins, digit⟩ := isDigit_of_grouped grouped
      exact readNumber_eq (readSign_append signed grouped tail) (by rw [begins]; rfl) digit
        (readDecimalDigits_append grouped short ends) (readFloatEnd_of_ends ends)
    | based kind =>
      -- what stands before the mark is a zero, which neither a point nor an exponent follows
      cases kind <;>
      exact readNumber_eq rfl rfl (by decide : Text.Decimal.isDigit '0' = true) rfl rfl
  rw [whole, read]
  rfl

/-- An integer is not taken for a date or a time of day either. -/
theorem SpellsInteger.readNumberOrDate_append (spells : SpellsInteger number spelled)
    (fits : Fits number) (ends : Ends tail) :
    readNumberOrDate (spelled ++ tail) = some (.integer number, tail) := by
  have noDate : readDate (spelled ++ tail) = .absent := by
    cases spells with
    | decimal signed grouped short =>
      simp only [List.mem_cons, List.not_mem_nil, or_false] at signed
      rcases signed with rfl | rfl | rfl
      · exact readDate_append (grouped.forall_ne nondigits_decimal) ends
      · exact readDate_of_not_digit (by decide) _
      · exact readDate_of_not_digit (by decide) _
    | based kind grouped =>
      refine readDate_append (List.forall_mem_cons.mpr ⟨by decide, List.forall_mem_cons.mpr
        ⟨?_, grouped.forall_ne kind.apart⟩⟩) ends
      cases kind <;> decide
  unfold readNumberOrDate
  rw [noDate]
  exact spells.readNumber_append fits ends

/-! ## Writing -/

private theorem grouped_of_all (all_digits : ∀ symbol ∈ digits, isDigit symbol = true)
    (some_digit : digits ≠ []) : Grouped isDigit digits digits := by
  induction digits with
  | nil => exact absurd rfl some_digit
  | cons symbol rest inductionHypothesis =>
    obtain ⟨digit, others⟩ := List.forall_mem_cons.mp all_digits
    cases rest with
    | nil => exact .last digit
    | cons => exact .next digit (inductionHypothesis others (by simp))

/-- An integer in decimal digits. -/
def writeInteger (number : Int) : List Char :=
  (if number < 0 then ['-'] else []) ++ Text.Decimal.write number.natAbs

theorem spellsInteger_write (number : Int) : SpellsInteger number (writeInteger number) := by
  obtain ⟨some_digit, all_digits, value⟩ := Text.Decimal.spells_write number.natAbs
  have spells {sign : List Char} (signed : sign ∈ [[], ['+'], ['-']]) :=
    SpellsInteger.decimal signed (grouped_of_all all_digits some_digit) Text.Decimal.write_eq_zero
  unfold writeInteger
  by_cases negative : number < 0
  · have same := spells (show ['-'] ∈ [[], ['+'], ['-']] by decide)
    rw [if_pos rfl, value, show (-(number.natAbs : Int)) = number by omega] at same
    rw [if_pos negative]
    exact same
  · have same := spells (show [] ∈ [[], ['+'], ['-']] by decide)
    rw [if_neg (by decide), value, show (number.natAbs : Int) = number by omega] at same
    rw [if_neg negative]
    exact same

end ContentStore.Toml
