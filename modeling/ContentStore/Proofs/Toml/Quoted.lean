import ContentStore.Proofs.Bytes.Hex
import ContentStore.Toml.Quoted

/-!
Contract: strings of one line between double quotes.

Owns:
- `SpellsSymbol` and `SpellsBasic`, all ways to write a character and a text between
  double quotes: as it is, by a letter after a backslash, or by its code point in four
  or eight hexadecimal digits of either case;
- that all of them are read as the text, up to the quote that closes them;
- that `writeBasic` is one of them, for every text.

Does not own: strings of several lines and strings between apostrophes.
-/

namespace ContentStore.Toml

/-- The letters that stand for a character behind a backslash. -/
def letterEscapes : List (Char × Char) :=
  [('b', '\x08'), ('f', '\x0c'), ('n', '\n'), ('r', '\r'), ('t', '\t'), ('"', '"'), ('\\', '\\')]

/-- The ways to write a character between double quotes. -/
inductive SpellsSymbol (symbol : Char) : List Char → Prop where
  | itself (basic : isBasic symbol = true) : SpellsSymbol symbol [symbol]
  | letter {name : Char} (listed : (name, symbol) ∈ letterEscapes) :
      SpellsSymbol symbol ['\\', name]
  | short {digits : List Char} (four : digits.length = 4)
      (code : Bytes.Hex.number? digits = some symbol.toNat) :
      SpellsSymbol symbol ('\\' :: 'u' :: digits)
  | long {digits : List Char} (eight : digits.length = 8)
      (code : Bytes.Hex.number? digits = some symbol.toNat) :
      SpellsSymbol symbol ('\\' :: 'U' :: digits)

/-- The ways to write a text between double quotes, without these. -/
inductive SpellsBasic : List Char → List Char → Prop where
  | nil : SpellsBasic [] []
  | cons {symbol : Char} {text piece spelled : List Char} (first : SpellsSymbol symbol piece)
      (rest : SpellsBasic text spelled) : SpellsBasic (symbol :: text) (piece ++ spelled)

variable {symbol : Char} {text piece spelled digits : List Char} {count fuel : Nat}

/-! ## Reading -/

private theorem readCodePoint_append (counted : digits.length = count)
    (code : Bytes.Hex.number? digits = some symbol.toNat) (rest : List Char) :
    readCodePoint count (digits ++ rest) = some (symbol, rest) := by
  have taken : (digits ++ rest).take count = digits := List.take_left' counted
  have valid : symbol.toNat.isValidChar := symbol.valid
  unfold readCodePoint
  simp only [taken, counted, code, if_pos valid, if_true, Char.ofNat_toNat,
    List.drop_left' counted]

/-- A character that stands for itself is neither a quote nor a backslash. -/
theorem ne_of_isBasic (basic : isBasic symbol = true) : symbol ≠ '"' ∧ symbol ≠ '\\' := by
  simp only [isBasic, Bool.and_eq_true, bne_iff_ne] at basic
  exact ⟨basic.1.2, basic.2⟩

/-- An escape is read whole. -/
theorem readEscape_of_spells (spells : SpellsSymbol symbol ('\\' :: piece)) (rest : List Char) :
    readEscape (piece ++ rest) = some (symbol, rest) := by
  cases spells with
  | itself basic => exact absurd rfl (ne_of_isBasic basic).2
  | letter listed =>
    simp only [letterEscapes, List.mem_cons, Prod.mk.injEq, List.not_mem_nil, or_false] at listed
    rcases listed with ⟨rfl, rfl⟩ | ⟨rfl, rfl⟩ | ⟨rfl, rfl⟩ | ⟨rfl, rfl⟩ | ⟨rfl, rfl⟩ | ⟨rfl, rfl⟩ |
      ⟨rfl, rfl⟩ <;>
    rfl
  | short four code => exact readCodePoint_append four code rest
  | long eight code => exact readCodePoint_append eight code rest

/-- One character is read, and then the rest. -/
theorem SpellsSymbol.readBasicRest_append (spells : SpellsSymbol symbol piece) (fuel : Nat)
    (rest : List Char) :
    readBasicRest (fuel + 1) (piece ++ rest) =
      (readBasicRest fuel rest).map fun (symbols, after) => (symbol :: symbols, after) := by
  have escaped {more : List Char} (spells : SpellsSymbol symbol ('\\' :: more)) :
      readBasicRest (fuel + 1) ('\\' :: more ++ rest) =
        (readBasicRest fuel rest).map fun (symbols, after) => (symbol :: symbols, after) := by
    rw [List.cons_append, readBasicRest, readEscape_of_spells spells]
    show (readBasicRest fuel rest).bind _ = _
    cases readBasicRest fuel rest <;> rfl
  cases spells with
  | itself basic =>
    obtain ⟨notQuote, notBackslash⟩ := ne_of_isBasic basic
    rw [List.singleton_append, readBasicRest]
    · rw [if_pos basic]
      cases readBasicRest fuel rest <;> rfl
    · exact notQuote
    · exact notBackslash
  | letter listed => exact escaped (.letter listed)
  | short four code => exact escaped (.short four code)
  | long eight code => exact escaped (.long eight code)

/-- A text is read up to the quote that closes it. -/
theorem SpellsBasic.readBasicRest_append (spells : SpellsBasic text spelled)
    (enough : text.length ≤ fuel) (rest : List Char) :
    readBasicRest fuel (spelled ++ '"' :: rest) = some (text, rest) := by
  induction spells generalizing fuel with
  | nil => rw [List.nil_append, readBasicRest]
  | cons first _ inductionHypothesis =>
    obtain ⟨less, rfl⟩ := Nat.exists_eq_add_of_lt (Nat.lt_of_lt_of_le (Nat.succ_pos _) enough)
    rw [List.append_assoc, Nat.zero_add, first.readBasicRest_append]
    rw [inductionHypothesis (by simp only [List.length_cons] at enough; omega)]
    rfl

private theorem SpellsSymbol.length_pos (spells : SpellsSymbol symbol piece) :
    0 < piece.length := by
  cases spells <;> exact Nat.succ_pos _

theorem SpellsBasic.length_le (spells : SpellsBasic text spelled) :
    text.length ≤ spelled.length := by
  induction spells with
  | nil => exact Nat.le_refl 0
  | cons first _ inductionHypothesis =>
    have positive := first.length_pos
    simp only [List.length_cons, List.length_append]
    omega

/-- No way to write a character begins with a quote. -/
theorem SpellsSymbol.head_ne_quote (spells : SpellsSymbol symbol piece) :
    piece.head? ≠ some '"' := by
  cases spells with
  | itself basic => simpa using (ne_of_isBasic basic).1
  | letter | short | long => simp

/-- A string of one line is read, if it is not taken for one of several lines. -/
theorem SpellsBasic.readText_append (spells : SpellsBasic text spelled) {rest : List Char}
    (ended : rest.head? ≠ some '"') :
    readText ('"' :: spelled ++ '"' :: rest) = some (text, rest) := by
  have enough : text.length ≤ (spelled ++ '"' :: rest).length + 1 := by
    have shorter := spells.length_le
    simp only [List.length_append]
    omega
  have read := spells.readBasicRest_append enough rest
  rw [List.cons_append, ← read]
  cases spells with
  | nil =>
    -- the quote that closes an empty string could be the second of three
    rw [List.nil_append, readText]
    intro tail spelled
    rw [(List.cons.inj spelled).2] at ended
    exact ended rfl
  | @cons _ _ piece spelled first _ =>
    have other := first.head_ne_quote
    have some_symbol := first.length_pos
    cases piece with
    | nil => exact absurd some_symbol (Nat.lt_irrefl 0)
    | cons head tail =>
      rw [List.cons_append, List.cons_append, readText]
      intro tail spelled
      exact other (by rw [(List.cons.inj spelled).1]; rfl)

/-! ## Writing -/

private theorem spellsSymbol_write (symbol : Char) :
    SpellsSymbol symbol (writeBasicSymbol symbol) := by
  unfold writeBasicSymbol
  by_cases basic : isBasic symbol = true
  · rw [if_pos basic]
    exact .itself basic
  · rw [if_neg basic]
    have small : symbol.toNat < Nat.pow 256 4 := by
      have range := symbol.valid
      simp only [UInt32.isValidChar, Nat.isValidChar] at range
      have code : symbol.toNat = symbol.val.toNat := rfl
      have power : Nat.pow 256 4 = 4294967296 := rfl
      omega
    have spelled : Bytes.Hex.number? (Bytes.Hex.encode (Bytes.bigEndian 4 symbol.toNat)) =
        some symbol.toNat := by
      rw [Bytes.Hex.number?_encode, Bytes.ofBigEndian_bigEndian small]
    have eight : (Bytes.Hex.encode (Bytes.bigEndian 4 symbol.toNat)).length = 8 := by
      rw [Bytes.Hex.length_encode, Bytes.length_bigEndian]
    exact .long eight spelled

/-- Every text can be written between double quotes. -/
theorem spellsBasic_write (text : List Char) :
    SpellsBasic text (text.flatMap writeBasicSymbol) := by
  induction text with
  | nil => exact .nil
  | cons symbol rest inductionHypothesis =>
    rw [List.flatMap_cons]
    exact .cons (spellsSymbol_write symbol) inductionHypothesis

end ContentStore.Toml
