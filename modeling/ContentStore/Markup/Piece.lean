import ContentStore.Text.Blank
import ContentStore.Text.Split

/-!
Contract: the pieces of a document in angle brackets.

Owns:
- `Piece`, a tag, a segment of text, a document type, or something that is
  passed over: a comment or a processing instruction;
- `readMarkup`, which reads one piece after its angle bracket, and
  `length_readMarkup_le`, by which reading comes to an end;
- `pieces`, the pieces of a document up to its end or to its first fault.

Does not own: which tags belong together, what references in text stand for.
-/

namespace ContentStore.Markup

/-- White space between and inside tags. -/
def isBlank (symbol : Char) : Bool :=
  symbol == ' ' || symbol == '\t' || symbol == '\r' || symbol == '\n'

/-- A stretch of text. -/
inductive Segment where
  /-- Text between tags, with its references unread. -/
  | plain (raw : List Char)
  /-- A section that stands for itself, character by character. -/
  | verbatim (content : List Char)
deriving DecidableEq, Repr

/-- A piece of a document. -/
inductive Piece where
  | opening (name attributes : List Char)
  /-- The tag of an element without content. -/
  | standalone (name attributes : List Char)
  | closing (name : List Char)
  | segment (text : Segment)
  | documentType
  /-- A comment or a processing instruction. -/
  | aside
deriving DecidableEq, Repr

/-- What precedes the bracket that ends a tag, and what follows it; a bracket
in quotes ends nothing. -/
def cutTag (quote : Option Char) : List Char → Option (List Char × List Char)
  | [] => none
  | symbol :: rest =>
    match quote with
    | some mark =>
      (cutTag (if symbol = mark then none else quote) rest).map fun (before, after) =>
        (symbol :: before, after)
    | none =>
      if symbol = '>' then some ([], rest)
      else
        (cutTag (if symbol = '"' ∨ symbol = '\'' then some symbol else none) rest).map
          fun (before, after) => (symbol :: before, after)

/-- What precedes the bracket that ends a document type, and what follows it;
brackets inside come in pairs, `depth` of which are open. -/
def cutDocumentType (depth : Nat) : List Char → Option (List Char × List Char)
  | [] => none
  | symbol :: rest =>
    if symbol = '>' ∧ depth = 0 then some ([], rest)
    else
      let next := if symbol = '<' then depth + 1 else if symbol = '>' then depth - 1 else depth
      (cutDocumentType next rest).map fun (before, after) => (symbol :: before, after)

/-- The name at the front of a tag: all before the first blank. -/
def tagName (body : List Char) : List Char :=
  body.takeWhile fun symbol => !isBlank symbol

def tagAttributes (body : List Char) : List Char :=
  body.dropWhile fun symbol => !isBlank symbol

/-- The tag with a given text between its brackets; a slash at the end makes
an element without content. -/
def tag (body : List Char) : Piece :=
  if body.getLast? = some '/' then .standalone (tagName body.dropLast) (tagAttributes body.dropLast)
  else .opening (tagName body) (tagAttributes body)

/-- The name in a closing tag.  Blanks after it do not belong to it, but a name
of blanks only is kept. -/
def closingName (body : List Char) : List Char :=
  if body.all isBlank then body else Text.trimEnd isBlank body

/-- Whether a document type begins with its keyword, in any case, and names
something after it. -/
def isDocumentType (body : List Char) : Bool :=
  (body.take 7).map Char.toUpper == "DOCTYPE".toList && (body.drop 7).any (!isBlank ·)

/-- Read what begins after an opening angle bracket. -/
def readMarkup : List Char → Option (Piece × List Char)
  | '!' :: '-' :: '-' :: rest => (Text.cut "-->".toList rest).map fun (_, after) => (.aside, after)
  | '!' :: '[' :: 'C' :: 'D' :: 'A' :: 'T' :: 'A' :: '[' :: rest =>
    (Text.cut "]]>".toList rest).map fun (content, after) => (.segment (.verbatim content), after)
  | '!' :: rest =>
    match cutDocumentType 0 rest with
    | some (body, after) => if isDocumentType body then some (.documentType, after) else none
    | none => none
  | '?' :: '>' :: _ => none
  | '?' :: rest => (Text.cut "?>".toList rest).map fun (_, after) => (.aside, after)
  | '/' :: rest =>
    (cutTag none rest).map fun (body, after) => (.closing (closingName body), after)
  | symbols => (cutTag none symbols).map fun (body, after) => (tag body, after)

/-- What follows a tag is no longer than the whole. -/
theorem length_cutTag_le {quote : Option Char} {symbols before after : List Char}
    (found : cutTag quote symbols = some (before, after)) : after.length ≤ symbols.length := by
  induction symbols generalizing quote before with
  | nil => simp [cutTag] at found
  | cons symbol rest inductionHypothesis =>
    simp only [List.length_cons]
    cases quote with
    | some mark =>
      simp only [cutTag, Option.map_eq_some_iff, Prod.mk.injEq] at found
      obtain ⟨⟨_, _⟩, inner, _, rfl⟩ := found
      have shorter := inductionHypothesis inner
      exact Nat.le_succ_of_le shorter
    | none =>
      simp only [cutTag] at found
      split at found
      · simp only [Option.some.injEq, Prod.mk.injEq] at found
        obtain ⟨_, rfl⟩ := found
        omega
      · simp only [Option.map_eq_some_iff, Prod.mk.injEq] at found
        obtain ⟨⟨_, _⟩, inner, _, rfl⟩ := found
        have shorter := inductionHypothesis inner
        exact Nat.le_succ_of_le shorter

/-- What follows a document type is no longer than the whole. -/
theorem length_cutDocumentType_le {depth : Nat} {symbols before after : List Char}
    (found : cutDocumentType depth symbols = some (before, after)) :
    after.length ≤ symbols.length := by
  induction symbols generalizing depth before with
  | nil => simp [cutDocumentType] at found
  | cons symbol rest inductionHypothesis =>
    simp only [List.length_cons]
    simp only [cutDocumentType] at found
    split at found
    · simp only [Option.some.injEq, Prod.mk.injEq] at found
      obtain ⟨_, rfl⟩ := found
      omega
    · simp only [Option.map_eq_some_iff, Prod.mk.injEq] at found
      obtain ⟨⟨_, _⟩, inner, _, rfl⟩ := found
      have shorter := inductionHypothesis inner
      exact Nat.le_succ_of_le shorter

/-- What follows a piece is no longer than what followed its bracket. -/
theorem length_readMarkup_le {symbols after : List Char} {piece : Piece}
    (found : readMarkup symbols = some (piece, after)) : after.length ≤ symbols.length := by
  unfold readMarkup at found
  split at found
  case h_3 =>
    split at found
    case h_1 inner =>
      split at found
      · simp only [Option.some.injEq, Prod.mk.injEq] at found
        obtain ⟨_, rfl⟩ := found
        have shorter := length_cutDocumentType_le inner
        simp only [List.length_cons]
        omega
      · simp at found
    case h_2 => simp at found
  case h_4 => simp at found
  all_goals
    simp only [Option.map_eq_some_iff, Prod.mk.injEq] at found
    obtain ⟨⟨_, _⟩, inner, _, rfl⟩ := found
    first
      | exact length_cutTag_le inner
      | exact Nat.le_succ_of_le (length_cutTag_le inner)
      | exact Nat.le_succ_of_le (Text.length_cut_le inner)
      | exact Nat.le_trans (Text.length_cut_le inner) (by simp only [List.length_cons]; omega)

/-- The pieces of a document up to its end or to the first bracket after which
no piece can be read. -/
def pieces : List Char → List Piece
  | [] => []
  | symbol :: rest =>
    if symbol = '<' then
      match found : readMarkup rest with
      | some (piece, after) =>
        have : after.length < (symbol :: rest).length := by
          have shorter := length_readMarkup_le found
          simp only [List.length_cons]
          omega
        piece :: pieces after
      | none => []
    else
      have : (rest.dropWhile (· != '<')).length < (symbol :: rest).length := by
        have shorter := (List.dropWhile_sublist (l := rest) (· != '<')).length_le
        simp only [List.length_cons]
        omega
      .segment (.plain (symbol :: rest.takeWhile (· != '<'))) :: pieces (rest.dropWhile (· != '<'))
termination_by symbols => symbols.length
decreasing_by all_goals assumption

end ContentStore.Markup
