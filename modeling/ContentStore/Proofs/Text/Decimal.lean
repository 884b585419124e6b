import ContentStore.Text.Blank
import ContentStore.Text.Decimal

/-!
Contract: decimal numbers that are read from their spelling.

Owns:
- where digits stand among the characters;
- `Spells`, by which digits stand for a number, with or without zeros in front;
- that reading gives the number, if it is below the limit;
- that numbers are written as digits that spell them, also when they are filled up
  with zeros to a width, and that no fewer digits spell them.

Does not own: what is no spelling, and why.
-/

namespace ContentStore.Text.Decimal

/-- Digits that stand for a number. -/
structure Spells (digits : List Char) (number : Nat) : Prop where
  some_digit : digits ≠ []
  all_digits : ∀ symbol ∈ digits, isDigit symbol = true
  value_eq : value digits = number

variable {digits : List Char} {symbol : Char} {limit number total : Nat}

/-! ## Digits -/

theorem toNat_of_isDigit (digit : isDigit symbol = true) :
    48 ≤ symbol.toNat ∧ symbol.toNat ≤ 57 := by
  simp only [isDigit, Bool.and_eq_true, decide_eq_true_eq] at digit
  exact digit

theorem not_isBlank_of_isDigit (digit : isDigit symbol = true) : isBlank symbol = false := by
  obtain ⟨low, high⟩ := toNat_of_isDigit digit
  simp only [isBlank, Bool.or_eq_false_iff, Bool.and_eq_false_iff, decide_eq_false_iff_not,
    beq_eq_false_iff_ne]
  omega

/-! ## Reading -/

theorem le_foldl_digitValue (digits : List Char) (total : Nat) :
    total ≤ digits.foldl (fun total symbol => total * 10 + digitValue symbol) total := by
  induction digits generalizing total with
  | nil => exact Nat.le_refl total
  | cons symbol rest inductionHypothesis =>
    rw [List.foldl_cons]
    have later := inductionHypothesis (total * 10 + digitValue symbol)
    omega

/-- Digits are read to their end if what they stand for is below the limit. -/
theorem readDigits_of_lt (all_digits : ∀ symbol ∈ digits, isDigit symbol = true)
    (small : digits.foldl (fun total symbol => total * 10 + digitValue symbol) total < limit) :
    readDigits limit total digits =
      .ok (digits.foldl (fun total symbol => total * 10 + digitValue symbol) total) := by
  induction digits generalizing total with
  | nil => rfl
  | cons symbol rest inductionHypothesis =>
    rw [List.foldl_cons] at small
    have below : total * 10 + digitValue symbol < limit :=
      Nat.lt_of_le_of_lt (le_foldl_digitValue rest _) small
    have later := inductionHypothesis
      (fun other member => all_digits other (List.mem_cons_of_mem _ member)) small
    unfold readDigits
    rw [if_pos (all_digits symbol List.mem_cons_self)]
    simp only [if_pos below]
    rw [later, List.foldl_cons]

private theorem isDigit_plus : isDigit '+' = false := by decide

/-- A number below the limit is read from its spelling. -/
theorem Spells.read_eq (spells : Spells digits number) (small : number < limit) :
    read limit digits = .ok number := by
  have digitsRead : readDigits limit 0 digits = .ok number := by
    rw [← spells.value_eq] at small ⊢
    exact readDigits_of_lt spells.all_digits small
  unfold read
  split
  · exact absurd rfl spells.some_digit
  · exact absurd (spells.all_digits '+' List.mem_cons_self) (by simp [isDigit_plus])
  · exact absurd (spells.all_digits '+' List.mem_cons_self) (by simp [isDigit_plus])
  · exact digitsRead

/-- Digits stand for less than the power of ten of their number. -/
theorem foldl_digitValue_lt (all_digits : ∀ symbol ∈ digits, isDigit symbol = true)
    (total : Nat) :
    digits.foldl (fun total symbol => total * 10 + digitValue symbol) total <
      (total + 1) * Nat.pow 10 digits.length := by
  induction digits generalizing total with
  | nil =>
    show total < (total + 1) * 1
    omega
  | cons symbol rest inductionHypothesis =>
    rw [List.foldl_cons, List.length_cons]
    obtain ⟨_, high⟩ := toNat_of_isDigit (all_digits symbol List.mem_cons_self)
    have small : total * 10 + digitValue symbol + 1 ≤ (total + 1) * 10 := by
      unfold digitValue
      omega
    have later := inductionHypothesis
      (fun other member => all_digits other (List.mem_cons_of_mem _ member))
      (total * 10 + digitValue symbol)
    calc rest.foldl (fun total symbol => total * 10 + digitValue symbol)
          (total * 10 + digitValue symbol)
        < (total * 10 + digitValue symbol + 1) * Nat.pow 10 rest.length := later
      _ ≤ (total + 1) * 10 * Nat.pow 10 rest.length := Nat.mul_le_mul_right _ small
      _ = (total + 1) * Nat.pow 10 (rest.length + 1) := by
        rw [Nat.mul_assoc, Nat.mul_comm 10]
        rfl

private theorem Spells.lt_pow (spells : Spells digits number) :
    number < Nat.pow 10 digits.length := by
  have bound := foldl_digitValue_lt spells.all_digits 0
  rw [Nat.zero_add, Nat.one_mul] at bound
  rw [← spells.value_eq]
  exact bound

/-! ## Writing -/

private theorem isDigit_digit (small : number < 10) : isDigit (digit number) = true := by
  have all : ∀ number < 10, isDigit (digit number) = true := by decide
  exact all number small

private theorem digitValue_digit (small : number < 10) : digitValue (digit number) = number := by
  have all : ∀ number < 10, digitValue (digit number) = number := by decide
  exact all number small

private theorem value_append_digit (digits : List Char) (last : Char) :
    value (digits ++ [last]) = value digits * 10 + digitValue last := by
  unfold value
  rw [List.foldl_append]
  rfl

/-- A number is spelled by the digits that are written for it. -/
theorem spells_write (number : Nat) : Spells (write number) number := by
  induction number using Nat.strongRecOn with
  | _ number inductionHypothesis =>
    unfold write
    by_cases small : number < 10
    · rw [if_pos small]
      refine ⟨List.cons_ne_nil _ _, ?_, ?_⟩
      · intro symbol member
        rw [List.mem_singleton.mp member]
        exact isDigit_digit small
      · show 0 * 10 + digitValue (digit number) = number
        rw [digitValue_digit small]
        omega
    · rw [if_neg small]
      have front := inductionHypothesis (number / 10) (by omega)
      have lastSmall : number % 10 < 10 := Nat.mod_lt _ (by decide)
      refine ⟨?_, ?_, ?_⟩
      · simp
      · intro symbol member
        rcases List.mem_append.mp member with before | last
        · exact front.all_digits symbol before
        · rw [List.mem_singleton.mp last]
          exact isDigit_digit lastSmall
      · rw [value_append_digit, front.value_eq, digitValue_digit lastSmall]
        omega

theorem spells_text (number : Nat) : Spells (text number).toList number := by
  rw [text, String.toList_ofList]
  exact spells_write number

/-! ### Leading zeros -/

private theorem value_replicate_zero_append (count : Nat) (digits : List Char) :
    value (List.replicate count '0' ++ digits) = value digits := by
  induction count with
  | zero => rfl
  | succ count inductionHypothesis =>
    rw [List.replicate_succ, List.cons_append]
    exact inductionHypothesis

/-- A number is also spelled with zeros in front. -/
theorem spells_pad (width number : Nat) : Spells (pad width number) number := by
  obtain ⟨some_digit, all_digits, value_eq⟩ := spells_write number
  refine ⟨?_, ?_, ?_⟩
  · exact List.append_ne_nil_of_right_ne_nil _ some_digit
  · intro symbol member
    rcases List.mem_append.mp member with zero | written
    · rw [(List.mem_replicate.mp zero).2]
      decide
    · exact all_digits symbol written
  · unfold pad
    simp only
    rw [value_replicate_zero_append, value_eq]

private theorem length_write_le {width : Nat} (small : number < Nat.pow 10 width)
    (some_width : 1 ≤ width) :
    (write number).length ≤ width := by
  induction width generalizing number with
  | zero => omega
  | succ width inductionHypothesis =>
    unfold write
    split
    · exact Nat.succ_le_succ (Nat.zero_le width)
    · rename_i large
      have wider : Nat.pow 10 (width + 1) = Nat.pow 10 width * 10 := rfl
      have smaller : number / 10 < Nat.pow 10 width := by omega
      have some_rest : 1 ≤ width := by
        rcases Nat.eq_zero_or_pos width with rfl | positive
        · exact absurd small large
        · exact positive
      rw [List.length_append]
      exact Nat.succ_le_succ (inductionHypothesis smaller some_rest)

/-- No fewer digits spell a number than are written for it. -/
theorem Spells.length_write_le (spells : Spells digits number) :
    (write number).length ≤ digits.length :=
  Decimal.length_write_le spells.lt_pow (List.length_pos_iff.mpr spells.some_digit)

/-- A number that is less by a factor of ten is written with fewer digits. -/
theorem Spells.length_write_lt {quotient : Nat} (spells : Spells digits number)
    (some_quotient : 1 ≤ quotient) (less : quotient * 10 ≤ number) :
    (write quotient).length < digits.length := by
  have bound := spells.lt_pow
  cases measured : digits.length with
  | zero => exact absurd (List.length_eq_zero_iff.mp measured) spells.some_digit
  | succ width =>
    rw [measured] at bound
    have wider : Nat.pow 10 (width + 1) = Nat.pow 10 width * 10 := rfl
    have smaller : quotient < Nat.pow 10 width := by omega
    have some_width : 1 ≤ width := by
      rcases Nat.eq_zero_or_pos width with rfl | positive
      · exact absurd smaller (Nat.not_lt.mpr some_quotient)
      · exact positive
    exact Nat.lt_succ_of_le (Decimal.length_write_le smaller some_width)

/-- Nothing but zero is written with a zero in front. -/
theorem write_eq_zero (zero : (write number).head? = some '0') : write number = ['0'] := by
  have spells := spells_write number
  have short (other : List Char) (spellsToo : Spells other number) := spellsToo.length_write_le
  cases written : write number with
  | nil => exact absurd written spells.some_digit
  | cons first rest =>
    rw [written] at zero spells short
    obtain rfl : first = '0' := Option.some.inj zero
    cases rest with
    | nil => rfl
    | cons second others =>
      -- the zero could be left out
      have fewer : Spells (second :: others) number :=
        ⟨List.cons_ne_nil _ _, fun symbol member => spells.all_digits symbol
          (List.mem_cons_of_mem _ member), spells.value_eq⟩
      exact absurd (short _ fewer) (Nat.not_succ_le_self _)

/-- A number that fits into a width is filled up to it. -/
theorem length_pad {width : Nat} (small : number < Nat.pow 10 width) (some_width : 1 ≤ width) :
    (pad width number).length = width := by
  have short := length_write_le small some_width
  unfold pad
  simp only [List.length_append, List.length_replicate]
  omega

end ContentStore.Text.Decimal
