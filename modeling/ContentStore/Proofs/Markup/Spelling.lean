import ContentStore.Proofs.Markup.Tree
import ContentStore.Proofs.Text.Blank

/-!
Contract: text in which some characters are written as references.

Owns:
- `Spells`, by which a character may stand for itself or be written by its
  predefined name, and has to be if it would be read as markup;
- `escape`, by which every character with a name is written by it;
- `WritesText`, by which an element holds a text and nothing else, and that its
  node holds the text that was meant.

Does not own: references by number.
-/

namespace ContentStore.Markup

/-- The characters that have a name of their own. -/
def predefined : List (List Char × Char) :=
  [("lt".toList, '<'), ("gt".toList, '>'), ("amp".toList, '&'), ("apos".toList, '\''),
    ("quot".toList, '"')]

/-- Whether a text is written in a certain way. -/
inductive Spells : List Char → List Char → Prop where
  | nil : Spells [] []
  | plain {symbol : Char} {raw text : List Char} (notMarkup : symbol ≠ '<' ∧ symbol ≠ '&')
    (later : Spells raw text) : Spells (symbol :: raw) (symbol :: text)
  | named {name : List Char} {symbol : Char} {raw text : List Char}
    (known : (name, symbol) ∈ predefined) (later : Spells raw text) :
    Spells ('&' :: (name ++ ';' :: raw)) (symbol :: text)

variable {raw text rest name : List Char} {symbol : Char}

/-- A character by its name, if it has one. -/
def escaped (symbol : Char) : List Char :=
  match predefined.find? fun entry => entry.2 = symbol with
  | some entry => '&' :: (entry.1 ++ [';'])
  | none => [symbol]

/-- A text in which all characters with names are written by them. -/
def escape (text : List Char) : List Char :=
  text.flatMap escaped

/-- A text without markup is written as it stands. -/
theorem spells_self (free : ∀ symbol ∈ text, symbol ≠ '<' ∧ symbol ≠ '&') :
    Spells text text := by
  induction text with
  | nil => exact .nil
  | cons symbol text inductionHypothesis =>
    exact .plain (free symbol List.mem_cons_self)
      (inductionHypothesis fun other member => free other (List.mem_cons_of_mem _ member))

theorem Spells.append {front back frontText backText : List Char}
    (spellsFront : Spells front frontText) (spellsBack : Spells back backText) :
    Spells (front ++ back) (frontText ++ backText) := by
  induction spellsFront with
  | nil => exact spellsBack
  | plain notMarkup _ inductionHypothesis => exact .plain notMarkup inductionHypothesis
  | named known _ inductionHypothesis =>
    rw [List.cons_append, List.append_assoc, List.cons_append]
    exact .named known inductionHypothesis

theorem spells_escaped (symbol : Char) : Spells (escaped symbol) [symbol] := by
  unfold escaped
  split
  · rename_i entry found
    have holds := List.find?_some found
    have same : entry.2 = symbol := of_decide_eq_true holds
    have known : (entry.1, symbol) ∈ predefined := same ▸ List.mem_of_find?_eq_some found
    exact .named known .nil
  · rename_i unnamed
    have noEntry := List.find?_eq_none.mp unnamed
    refine .plain ⟨?_, ?_⟩ .nil
    · rintro rfl
      exact noEntry ("lt".toList, '<') (by decide) (by decide)
    · rintro rfl
      exact noEntry ("amp".toList, '&') (by decide) (by decide)

/-- An escaped text stands for the text. -/
theorem spells_escape (text : List Char) : Spells (escape text) text := by
  induction text with
  | nil => exact .nil
  | cons symbol rest inductionHypothesis =>
    exact (spells_escaped symbol).append inductionHypothesis

private theorem resolveFrom_name (written : List Char)
    (free : ∀ symbol ∈ name, symbol ≠ '&' ∧ symbol ≠ ';')
    (rest : List Char) :
    resolveFrom (some written) (name ++ ';' :: rest) = (do
      let meant ← referent (written.reverse ++ name)
      let text ← resolveFrom none rest
      return meant :: text) := by
  induction name generalizing written with
  | nil =>
    rw [List.nil_append, resolveFrom]
    simp
  | cons symbol name inductionHypothesis =>
    obtain ⟨notOpening, notEnd⟩ := free symbol List.mem_cons_self
    have later := inductionHypothesis (symbol :: written)
      fun other member => free other (List.mem_cons_of_mem _ member)
    rw [List.cons_append, resolveFrom]
    simp only [if_neg notOpening, if_neg notEnd]
    rw [later, List.reverse_cons, List.append_assoc, List.singleton_append]

private theorem of_mem_predefined (known : (name, symbol) ∈ predefined) :
    referent name = some symbol ∧ '<' ∉ name ∧
      ∀ other ∈ name, other ≠ '&' ∧ other ≠ ';' := by
  have all : ∀ entry ∈ predefined, referent entry.1 = some entry.2 ∧ '<' ∉ entry.1 ∧
      ∀ other ∈ entry.1, other ≠ '&' ∧ other ≠ ';' := by decide
  exact all _ known

namespace Spells

/-- What is written is read as the text that was meant. -/
theorem resolve_eq (spells : Spells raw text) : resolve raw = some text := by
  unfold resolve
  induction spells with
  | nil => rfl
  | plain notMarkup later inductionHypothesis =>
    rw [resolveFrom]
    simp only [if_neg notMarkup.2, inductionHypothesis, Option.map_some]
  | named known later inductionHypothesis =>
    obtain ⟨meant, _, free⟩ := of_mem_predefined known
    rw [resolveFrom]
    simp only [if_true]
    rw [resolveFrom_name [] free, List.reverse_nil, List.nil_append, meant, inductionHypothesis]
    rfl

private theorem bracket_notMem (spells : Spells raw text) : '<' ∉ raw := by
  induction spells with
  | nil => exact List.not_mem_nil
  | plain notMarkup later inductionHypothesis =>
    rw [List.mem_cons, not_or]
    exact ⟨notMarkup.1.symm, inductionHypothesis⟩
  | named known later inductionHypothesis =>
    obtain ⟨_, noBracket, _⟩ := of_mem_predefined known
    simp only [List.mem_cons, List.mem_append, not_or]
    exact ⟨by decide, noBracket, by decide, inductionHypothesis⟩

theorem sound_plain (spells : Spells raw text) (some_raw : raw ≠ []) :
    (Tree.plain raw).Sound := by
  rw [Tree.Sound, spells.resolve_eq]
  exact ⟨some_raw, spells.bracket_notMem, rfl⟩

private theorem ne_nil (spells : Spells raw text) (some_text : text ≠ []) : raw ≠ [] := by
  cases spells with
  | nil => exact absurd rfl some_text
  | plain notMarkup later => exact List.cons_ne_nil _ _
  | named known later => exact List.cons_ne_nil _ _

/-- A text that does not begin with a blank is not written so either. -/
theorem head (spells : Spells raw text) (visible : ∀ symbol ∈ text.head?, isBlank symbol = false) :
    ∀ symbol ∈ raw.head?, isBlank symbol = false := by
  cases spells with
  | nil => exact visible
  | plain notMarkup later => exact visible
  | named known later =>
    intro symbol begins
    rw [← Option.some.inj begins]
    decide

theorem eq_nil (spells : Spells [] text) : text = [] := by
  cases spells
  rfl

private theorem getLast?_eq (spells : Spells raw text) :
    ∀ symbol ∈ raw.getLast?, symbol = ';' ∨ symbol ∈ text.getLast? := by
  induction spells with
  | nil => exact fun symbol last => Or.inr last
  | @plain symbol raw text notMarkup later inductionHypothesis =>
    intro other last
    rw [List.getLast?_cons] at last ⊢
    cases lastRaw : raw.getLast? with
    | none =>
      have void := List.getLast?_eq_none_iff.mp lastRaw
      rw [lastRaw] at last
      rw [void] at later
      rw [later.eq_nil]
      exact Or.inr last
    | some final =>
      rw [lastRaw] at last
      rcases inductionHypothesis final lastRaw with isMark | inText
      · exact Or.inl ((Option.some.inj last).symm.trans isMark)
      · rw [Option.mem_def.mp inText]
        exact Or.inr last
  | @named name symbol raw text known later inductionHypothesis =>
    intro other last
    rw [List.getLast?_cons, List.getLast?_append, List.getLast?_cons] at last
    rw [List.getLast?_cons]
    cases lastRaw : raw.getLast? with
    | none =>
      rw [lastRaw] at last
      exact Or.inl (Option.some.inj last).symm
    | some final =>
      rw [lastRaw] at last
      rcases inductionHypothesis final lastRaw with isMark | inText
      · exact Or.inl ((Option.some.inj last).symm.trans isMark)
      · rw [Option.mem_def.mp inText]
        exact Or.inr last

/-- A text that does not end with a blank is not written so either. -/
theorem getLast (spells : Spells raw text)
    (visible : ∀ symbol ∈ text.getLast?, isBlank symbol = false) :
    ∀ symbol ∈ raw.getLast?, isBlank symbol = false := by
  intro symbol last
  rcases spells.getLast?_eq symbol last with rfl | inText
  · decide
  · exact visible symbol inText

end Spells

/-! ## Elements that hold a text -/

/-- Whether there is no white space at the ends of a text. -/
structure Trimmed (text : List Char) : Prop where
  head : ∀ symbol ∈ text.head?, isBlank symbol = false
  last : ∀ symbol ∈ text.getLast?, isBlank symbol = false

instance (text : List Char) : Decidable (Trimmed text) :=
  decidable_of_iff (_ ∧ _)
    ⟨fun ends => ⟨ends.1, ends.2⟩, fun trimmed => ⟨trimmed.head, trimmed.last⟩⟩

/-- The white space of markup is white space of Unicode. -/
theorem not_isBlank_of_text (visible : Text.isBlank symbol = false) : isBlank symbol = false := by
  cases blank : isBlank symbol with
  | false => rfl
  | true =>
    rcases eq_of_isBlank blank with rfl | rfl | rfl | rfl <;> exact absurd visible (by decide)

private theorem Trimmed.trimStart (trimmed : Trimmed text) : Text.trimStart isBlank text = text :=
  Text.trimStart_eq_self trimmed.head

private theorem Trimmed.trimEnd (trimmed : Trimmed text) : Text.trimEnd isBlank text = text :=
  Text.trimEnd_eq_self trimmed.last

private theorem Spells.trimmed (spells : Spells raw text) (trimmed : Trimmed text) : Trimmed raw :=
  ⟨spells.head trimmed.head, spells.getLast trimmed.last⟩

private theorem textOf_plain (some_text : raw ≠ []) (trimmed : Trimmed raw)
    (means : resolve raw = some text) : textOf [.plain raw] = some (.text (some text)) := by
  have start : trimRunStart [.plain raw] = [.plain raw] := by
    rw [trimRunStart, trimmed.trimStart, if_neg (by simpa using some_text)]
  have ending : trimRunEnd [.plain raw] = [.plain raw] := by
    unfold trimRunEnd
    simp only [List.getLast?_singleton, List.dropLast_singleton, Segment.trimEnd,
      trimmed.trimEnd, List.nil_append]
  unfold textOf
  rw [start, ending]
  simp [Segment.content?, means]

/-- The ways to write a text between two tags. -/
inductive WritesText : List Char → List Tree → Prop where
  | empty : WritesText [] []
  | spelled {raw text : List Char} (some_text : text ≠ []) (trimmed : Trimmed text)
    (spells : Spells raw text) : WritesText text [.plain raw]

namespace WritesText

variable {trees : List Tree}

theorem nodesOf_eq (writes : WritesText text trees) :
    nodesOf trees = if text = [] then [] else [.text (some text)] := by
  cases writes with
  | empty =>
    unfold nodesOf
    rw [nodesAfter]
    rfl
  | spelled some_text trimmed spells =>
    unfold nodesOf
    rw [nodesAfter, nodesAfter, if_neg some_text, List.reverse_singleton,
      textOf_plain (spells.ne_nil some_text) (spells.trimmed trimmed) spells.resolve_eq]
    rfl

end WritesText

end ContentStore.Markup
