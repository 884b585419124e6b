import ContentStore.Bytes.Hex
import ContentStore.Text.Decimal

/-!
Contract: characters of texts.

Owns:
- that what holds of all characters of a text is decided one by one;
- where digits stand among the characters.

Does not own: what digits stand for.
-/

namespace ContentStore.Text

/-- Only the characters of the text are looked at, and not all that there are. -/
instance (priority := 2000) decidableForallSymbols (holds : Char → Prop) [DecidablePred holds]
    (symbols : List Char) : Decidable (∀ symbol ∈ symbols, holds symbol) :=
  List.decidableBAll holds symbols

instance (priority := 2000) decidableForallSymbol (holds : Char → Prop) [DecidablePred holds]
    (symbol? : Option Char) : Decidable (∀ symbol ∈ symbol?, holds symbol) :=
  Option.decidableForallMem symbol?

variable {symbol : Char}

theorem range_of_isDigit (digit : Bytes.Hex.IsDigit symbol) :
    48 ≤ symbol.toNat ∧ symbol.toNat ≤ 102 := by
  rcases digit with ⟨low, high⟩ | ⟨low, high⟩
  · exact ⟨low, Nat.le_trans high (by decide)⟩
  · exact ⟨Nat.le_trans (by decide) low, high⟩

/-- Decimal digits are hexadecimal ones. -/
theorem isDigit_of_decimal (digit : Decimal.isDigit symbol = true) :
    Bytes.Hex.IsDigit symbol := by
  simp only [Decimal.isDigit, Bool.and_eq_true, decide_eq_true_eq] at digit
  exact Or.inl digit

end ContentStore.Text
