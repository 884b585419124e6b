import ContentStore.Calendar.Civil

/-!
Contract: the calendar in both directions.

Owns:
- that years follow one another, so that each day number falls into the year that
  is found for it, and that the day found there has this number again;
- that each day of a year has a month and a day of the month, and is the day that
  these name.

Does not own: weeks.
-/

namespace ContentStore.Calendar

variable {year number : Int} {date : Date}

/-! ## Years -/

private theorem daysBeforeYear_succ (year : Int) :
    daysBeforeYear (year + 1) = daysBeforeYear year + yearLength year := by
  have leap : isLeap year = true ↔ year % 4 = 0 ∧ (year % 100 ≠ 0 ∨ year % 400 = 0) := by
    simp [isLeap]
  unfold daysBeforeYear yearLength
  by_cases isLeapYear : isLeap year = true
  · have divisible := leap.mp isLeapYear
    rw [if_pos isLeapYear]
    omega
  · have indivisible := mt leap.mpr isLeapYear
    rw [if_neg isLeapYear]
    omega

namespace Date

/-- A day number falls into the year that is found for it: the guess is wrong by
one year at most. -/
theorem yearOfDayNumber_bounds (number : Int) :
    daysBeforeYear (yearOfDayNumber number) ≤ number + epochDay ∧
      number + epochDay < daysBeforeYear (yearOfDayNumber number + 1) := by
  unfold yearOfDayNumber
  generalize number + epochDay = days
  simp only
  split
  · unfold daysBeforeYear at *
    omega
  · split
    · rw [Int.sub_add_cancel]
      unfold daysBeforeYear at *
      omega
    · unfold daysBeforeYear at *
      omega

theorem exists_ofDayNumber (number : Int) : (ofDayNumber number).Exists := by
  obtain ⟨low, high⟩ := yearOfDayNumber_bounds number
  rw [daysBeforeYear_succ] at high
  unfold ofDayNumber Exists
  simp only
  omega

/-- The day that is found for a number has this number. -/
theorem dayNumber_ofDayNumber (number : Int) : (ofDayNumber number).dayNumber = number := by
  obtain ⟨low, _⟩ := yearOfDayNumber_bounds number
  unfold ofDayNumber dayNumber
  simp only
  omega

/-! ## Months -/

private theorem sum_monthLengths (year : Int) :
    (monthLengths year).foldl (· + ·) 0 = yearLength year := by
  unfold monthLengths yearLength
  split <;> rfl

/-- A walk through the lengths of months ends in the month whose days make up the
number together with all days of the months before it. -/
theorem exists_monthAndDay {lengths : List Nat} {remaining : Nat} (positive : 1 ≤ remaining)
    (inside : remaining ≤ lengths.foldl (· + ·) 0) (month : Nat) :
    ∃ index length day, lengths[index]? = some length ∧
      monthAndDay lengths month remaining = (month + index, day) ∧ 1 ≤ day ∧ day ≤ length ∧
        (lengths.take index).foldl (· + ·) 0 + day = remaining := by
  induction lengths generalizing remaining month with
  | nil =>
    have void : remaining ≤ 0 := inside
    omega
  | cons length lengths inductionHypothesis =>
    have sum (later : List Nat) : (length :: later).foldl (· + ·) 0 =
        length + later.foldl (· + ·) 0 := by
      rw [List.foldl_cons, Nat.zero_add]
      exact @List.foldl_assoc Nat (· + ·) _ later length 0
    by_cases here : remaining ≤ length
    · refine ⟨0, length, remaining, rfl, ?_, positive, here, ?_⟩
      · rw [monthAndDay, if_pos here, Nat.add_zero]
      · simp
    · rw [sum] at inside
      have positiveRest : 1 ≤ remaining - length := by omega
      have insideRest : remaining - length ≤ lengths.foldl (· + ·) 0 := by omega
      obtain ⟨index, other, day, found, walked, first, last, total⟩ :=
        inductionHypothesis positiveRest insideRest (month + 1)
      refine ⟨index + 1, other, day, found, ?_, first, last, ?_⟩
      · rw [monthAndDay, if_neg here, walked]
        congr 1
        omega
      · rw [List.take_succ_cons, sum]
        omega

/-- A day of a year is the day that its month and its day of the month name, if the
year is in range. -/
theorem ofMonthDay?_eq (dateExists : date.Exists) (inRange : YearInRange date.year) :
    1 ≤ date.month ∧ date.month ≤ 12 ∧ 1 ≤ date.day ∧ date.day ≤ 31 ∧
      ofMonthDay? date.year date.month date.day = some date := by
  obtain ⟨positive, inside⟩ := dateExists
  rw [← sum_monthLengths] at inside
  obtain ⟨index, length, day, found, walked, first, last, total⟩ :=
    exists_monthAndDay positive inside 1
  have isMonth : date.month = index + 1 := by
    unfold month
    rw [walked]
    exact Nat.add_comm 1 index
  have isDay : date.day = day := by
    unfold Date.day
    rw [walked]
  have twelve : index < 12 := (List.getElem?_eq_some_iff.mp found).1
  have shorter : ∀ length ∈ monthLengths date.year, length ≤ 31 := by
    unfold monthLengths
    split <;> decide
  have short : length ≤ 31 := shorter length (List.mem_of_getElem? found)
  rw [isMonth, isDay]
  refine ⟨by omega, by omega, first, by omega, ?_⟩
  have conditions : YearInRange date.year ∧ 1 ≤ index + 1 ∧ 1 ≤ day ∧ day ≤ length :=
    ⟨inRange, by omega, first, last⟩
  unfold ofMonthDay?
  rw [Nat.add_sub_cancel, found]
  simp only [if_pos conditions, total]

end Date

end ContentStore.Calendar
