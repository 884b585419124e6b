import ContentStore.Text.Blank
import Mathlib.Data.List.DropRight

/-!
Contract: trimming of text.

Owns:
- what is left of a text if there is nothing to drop at its ends, or one
  character at each of them;
- which texts are trimmed to nothing.

Does not own: which characters are dropped.
-/

namespace ContentStore.Text

variable {dropped : Char → Bool} {symbols : List Char} {mark : Char} {text : String}

theorem trimStart_eq_self (kept : ∀ symbol ∈ symbols.head?, dropped symbol = false) :
    trimStart dropped symbols = symbols := by
  cases symbols with
  | nil => rfl
  | cons first more => exact List.dropWhile_cons_of_neg (by simp [kept first rfl])

theorem trimEnd_eq_self (kept : ∀ symbol ∈ symbols.getLast?, dropped symbol = false) :
    trimEnd dropped symbols = symbols := by
  have keptFirst : ∀ symbol ∈ symbols.reverse.head?, dropped symbol = false := by
    rw [List.head?_reverse]
    exact kept
  have reversed : symbols.reverse.dropWhile dropped = symbols.reverse :=
    trimStart_eq_self keptFirst
  unfold trimEnd
  rw [reversed, List.reverse_reverse]

theorem trim_eq_self (keptFirst : ∀ symbol ∈ symbols.head?, dropped symbol = false)
    (keptLast : ∀ symbol ∈ symbols.getLast?, dropped symbol = false) :
    trim dropped symbols = symbols := by
  unfold trim
  rw [trimStart_eq_self keptFirst, trimEnd_eq_self keptLast]

private theorem trimEnd_append_mark (isDropped : dropped mark = true) (symbols : List Char) :
    trimEnd dropped (symbols ++ [mark]) = trimEnd dropped symbols := by
  unfold trimEnd
  rw [List.reverse_append, List.reverse_singleton, List.singleton_append,
    List.dropWhile_cons_of_pos isDropped]

theorem trim_append_mark (isDropped : dropped mark = true) (symbols : List Char) :
    trim dropped (symbols ++ [mark]) = trim dropped symbols := by
  unfold trim trimStart
  rw [List.dropWhile_append]
  split
  · rename_i void
    rw [List.dropWhile_cons_of_pos isDropped, List.isEmpty_iff.mp void]
    rfl
  · exact trimEnd_append_mark isDropped _

private theorem trim_eq_nil_iff :
    trim dropped symbols = [] ↔ ∀ symbol ∈ symbols, dropped symbol = true := by
  unfold trim trimEnd trimStart
  rw [List.reverse_eq_nil_iff, List.dropWhile_eq_nil_iff]
  simp only [List.mem_reverse]
  rw [← List.dropWhile_eq_nil_iff, List.dropWhile_idempotent, List.dropWhile_eq_nil_iff]

theorem trimmed_eq_empty_iff : trimmed text = "" ↔ isBlankText text = true := by
  unfold trimmed isBlankText
  rw [String.ofList_eq_empty_iff, trim_eq_nil_iff, List.all_eq_true]

/-- A mark that is dropped is taken off both ends, and no more than that. -/
theorem trim_between (isDropped : dropped mark = true)
    (keptFirst : ∀ symbol ∈ symbols.head?, dropped symbol = false)
    (keptLast : ∀ symbol ∈ symbols.getLast?, dropped symbol = false) :
    trim dropped (mark :: (symbols ++ [mark])) = symbols := by
  have front : trimStart dropped (mark :: (symbols ++ [mark])) =
      trimStart dropped (symbols ++ [mark]) :=
    List.dropWhile_cons_of_pos isDropped
  unfold trim
  rw [front]
  cases symbols with
  | nil =>
    have void : trimStart dropped ([] ++ [mark]) = [] := List.dropWhile_cons_of_pos isDropped
    rw [void]
    rfl
  | cons first more =>
    have keptWhole : ∀ symbol ∈ (first :: more ++ [mark]).head?, dropped symbol = false :=
      keptFirst
    rw [trimStart_eq_self keptWhole, trimEnd_append_mark isDropped, trimEnd_eq_self keptLast]

end ContentStore.Text
