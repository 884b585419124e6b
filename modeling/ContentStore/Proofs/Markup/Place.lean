import ContentStore.Proofs.Markup.Run

/-!
Contract: places in a document, between its tags.

Owns:
- `LeadsTo`, by which a part of a document is read up to a place between tags, and the
  elements that are open there;
- `LeadsTo.exists_state`, by which whatever follows is read inside those elements;
- `exists_level`, by which the rest of an element is read alike, whatever is in front
  of it.

Does not own: places inside tags, comments or sections.
-/

namespace ContentStore.Markup

variable {symbols rest before after front back raw : List Char} {piece : Piece} {first : Char}

/-! ## What does not depend on what follows -/

private theorem cutTag_append {quote : Option Char}
    (found : cutTag quote symbols = some (before, after))
    (rest : List Char) : cutTag quote (symbols ++ rest) = some (before, after ++ rest) := by
  induction symbols generalizing quote before with
  | nil => simp [cutTag] at found
  | cons symbol symbols inductionHypothesis =>
    cases quote with
    | some mark =>
      obtain ⟨⟨read, tail⟩, inner, same⟩ := Option.map_eq_some_iff.mp found
      obtain ⟨rfl, rfl⟩ := Prod.mk.inj same
      rw [List.cons_append, cutTag, inductionHypothesis inner]
      rfl
    | none =>
      rw [cutTag] at found
      rw [List.cons_append, cutTag]
      split at found
      · rename_i ends
        obtain ⟨rfl, rfl⟩ := Prod.mk.inj (Option.some.inj found)
        rw [if_pos ends]
      · rename_i passed
        obtain ⟨⟨read, tail⟩, inner, same⟩ := Option.map_eq_some_iff.mp found
        obtain ⟨rfl, rfl⟩ := Prod.mk.inj same
        rw [if_neg passed, inductionHypothesis inner]
        rfl

private theorem cutDocumentType_append {depth : Nat}
    (found : cutDocumentType depth symbols = some (before, after)) (rest : List Char) :
    cutDocumentType depth (symbols ++ rest) = some (before, after ++ rest) := by
  induction symbols generalizing depth before with
  | nil => simp [cutDocumentType] at found
  | cons symbol symbols inductionHypothesis =>
    rw [cutDocumentType] at found
    rw [List.cons_append, cutDocumentType]
    split at found
    · rename_i ends
      obtain ⟨rfl, rfl⟩ := Prod.mk.inj (Option.some.inj found)
      rw [if_pos ends]
    · rename_i passed
      obtain ⟨⟨read, tail⟩, inner, same⟩ := Option.map_eq_some_iff.mp found
      obtain ⟨rfl, rfl⟩ := Prod.mk.inj same
      rw [if_neg passed]
      simp only [inductionHypothesis inner, Option.map_some]

/-- A document type begins with the letter of its keyword, and so is no comment and no
section. -/
theorem begins_documentType {depth : Nat}
    (found : cutDocumentType depth symbols = some (before, after))
    (isType : isDocumentType before = true) :
    ∃ first more, symbols = first :: more ∧ first ≠ '-' ∧ first ≠ '[' := by
  cases symbols with
  | nil => simp [cutDocumentType] at found
  | cons symbol more =>
    refine ⟨symbol, more, rfl, ?_⟩
    rw [cutDocumentType] at found
    split at found
    · obtain ⟨rfl, rfl⟩ := Prod.mk.inj (Option.some.inj found)
      exact absurd isType (by decide)
    · obtain ⟨⟨read, tail⟩, inner, same⟩ := Option.map_eq_some_iff.mp found
      obtain ⟨rfl, rfl⟩ := Prod.mk.inj same
      have keyword : symbol.toUpper = 'D' := by
        unfold isDocumentType at isType
        simp only [Bool.and_eq_true, beq_iff_eq, List.take_succ_cons, List.map_cons] at isType
        exact (List.cons.inj isType.1).1
      constructor <;> rintro rfl <;> exact absurd keyword (by decide)

private theorem readMarkup_documentType (notComment : first ≠ '-') (notSection : first ≠ '[')
    (rest : List Char) :
    readMarkup ('!' :: first :: rest) =
      match cutDocumentType 0 (first :: rest) with
      | some (body, after) => if isDocumentType body then some (.documentType, after) else none
      | none => none := by
  unfold readMarkup
  split
  case h_1 begun =>
    exact absurd (List.cons.inj (List.cons.inj begun).2).1 notComment
  case h_2 begun =>
    exact absurd (List.cons.inj (List.cons.inj begun).2).1 notSection
  case h_3 begun =>
    have isRest := (List.cons.inj begun).2
    subst isRest
    rfl
  case h_7 notBang _ _ _ => exact (notBang _ rfl).elim
  all_goals
    rename_i begun
    exact absurd (List.cons.inj begun).1 (by decide)

/-- A piece is read up to its end, whatever follows it. -/
theorem readMarkup_append (found : readMarkup symbols = some (piece, after)) (rest : List Char) :
    readMarkup (symbols ++ rest) = some (piece, after ++ rest) := by
  unfold readMarkup at found
  split at found
  case h_1 body =>
    obtain ⟨⟨content, tail⟩, isCut, same⟩ := Option.map_eq_some_iff.mp found
    obtain ⟨rfl, rfl⟩ := Prod.mk.inj same
    show (Text.cut "-->".toList (body ++ rest)).map _ = _
    rw [Text.cut_append isCut]
    rfl
  case h_2 body =>
    obtain ⟨⟨content, tail⟩, isCut, same⟩ := Option.map_eq_some_iff.mp found
    obtain ⟨rfl, rfl⟩ := Prod.mk.inj same
    show (Text.cut "]]>".toList (body ++ rest)).map _ = _
    rw [Text.cut_append isCut]
    rfl
  case h_3 body _ _ =>
    split at found
    case h_2 => exact absurd found (by simp)
    case h_1 content tail isCut =>
      split at found
      case isFalse => exact absurd found (by simp)
      case isTrue isType =>
        obtain ⟨rfl, rfl⟩ := Prod.mk.inj (Option.some.inj found)
        obtain ⟨first, more, rfl, notComment, notSection⟩ := begins_documentType isCut isType
        have isCutStill := cutDocumentType_append isCut rest
        rw [List.cons_append] at isCutStill
        rw [List.cons_append, List.cons_append, readMarkup_documentType notComment notSection,
          isCutStill]
        simp only [if_pos isType]
  case h_4 => exact absurd found (by simp)
  case h_5 body notEnd =>
    obtain ⟨⟨content, tail⟩, isCut, same⟩ := Option.map_eq_some_iff.mp found
    obtain ⟨rfl, rfl⟩ := Prod.mk.inj same
    have begins : (body ++ rest).head? ≠ some '>' := by
      cases body with
      | nil => exact absurd isCut (by simp [Text.cut])
      | cons first more =>
        intro isEnd
        exact notEnd more (by rw [← Option.some.inj isEnd])
    rw [List.cons_append, readMarkup_question begins, Text.cut_append isCut]
    rfl
  case h_6 body =>
    obtain ⟨⟨content, tail⟩, isCut, same⟩ := Option.map_eq_some_iff.mp found
    obtain ⟨rfl, rfl⟩ := Prod.mk.inj same
    show (cutTag none (body ++ rest)).map _ = _
    rw [cutTag_append isCut]
    rfl
  case h_7 notBang _ notQuestion notSlash =>
    obtain ⟨⟨content, tail⟩, isCut, same⟩ := Option.map_eq_some_iff.mp found
    obtain ⟨rfl, rfl⟩ := Prod.mk.inj same
    cases symbols with
    | nil => exact absurd isCut (by simp [cutTag])
    | cons first more =>
      have unmarked : first ≠ '!' ∧ first ≠ '?' ∧ first ≠ '/' :=
        ⟨fun same => notBang more (by rw [same]), fun same => notQuestion more (by rw [same]),
          fun same => notSlash more (by rw [same])⟩
      rw [List.cons_append, readMarkup_of_unmarked unmarked, ← List.cons_append,
        cutTag_append isCut]
      rfl

/-! ## Text between tags -/

variable {name attributes : List Char} {opened outer : List OpenElement} {content : List Node}
  {run : List Segment} {remaining : List Piece}

/-- The segment of the text before a tag, if there is any. -/
def segmentsOf (raw : List Char) : List Segment :=
  if raw = [] then [] else [.plain raw]

/-- What follows a place between tags begins with some text, if only with none. -/
theorem exists_text (symbols : List Char) :
    ∃ raw rest, symbols = raw ++ rest ∧ '<' ∉ raw ∧ Opens rest := by
  refine ⟨symbols.takeWhile (· != '<'), symbols.dropWhile (· != '<'),
    List.takeWhile_append_dropWhile.symm, fun member => ?_, fun symbol begins => ?_⟩
  · exact absurd (List.mem_takeWhile_imp member) (by decide)
  · have ends := List.head?_dropWhile_not (· != '<') symbols
    rw [Option.mem_def.mp begins] at ends
    simpa using ends

theorem pieces_segmentsOf (free : '<' ∉ raw) (opens : Opens rest) :
    pieces (raw ++ rest) = (segmentsOf raw).map .segment ++ pieces rest := by
  unfold segmentsOf
  split
  · rename_i void
    rw [void]
    rfl
  · rename_i some_text
    exact pieces_plain some_text free opens

theorem grow_segmentsOf (opened : List OpenElement) (content : List Node) (run : List Segment)
    (raw : List Char) (rest : List Piece) :
    grow opened content run ((segmentsOf raw).map .segment ++ rest) =
      grow opened content (segmentsOf raw ++ run) rest := by
  unfold segmentsOf
  split
  · rfl
  · rw [List.map_singleton, List.singleton_append, grow]
    rfl

/-! ## Places -/

/-- The elements that are open after a piece, innermost first; nothing if the piece closes
another element than the innermost. -/
def openAfter (names : List (List Char)) : Piece → Option (List (List Char))
  | .opening name _ => some (name :: names)
  | .closing name =>
    match names with
    | innermost :: outer => if innermost = name then some outer else none
    | [] => none
  | _ => some names

/-- The front of a document leads from a place, inside the elements `names`, to a place
between tags, inside other elements; `text` is the text right in front of it. -/
inductive LeadsTo : (names : List (List Char)) → (front : List Char) →
    (final : List (List Char)) → (text : List Char) → Prop where
  | text {names : List (List Char)} {raw : List Char} (free : '<' ∉ raw) :
    LeadsTo names raw names raw
  | markup {names inner final : List (List Char)} {raw symbols after text : List Char}
    {piece : Piece} (free : '<' ∉ raw) (found : readMarkup symbols = some (piece, after))
    (moves : openAfter names piece = some inner) (later : LeadsTo inner after final text) :
    LeadsTo names (raw ++ '<' :: symbols) final text

theorem LeadsTo.eq_of_nil {names final : List (List Char)} {text : List Char}
    (leads : LeadsTo names [] final text) : final = names := by
  generalize isNil : ([] : List Char) = front at leads
  cases leads with
  | text free => rfl
  | markup free found moves later => exact absurd isNil (by simp)

/-- A piece leads from one state to another, whatever follows it. -/
theorem exists_state_of_openAfter {names inner : List (List Char)}
    (moves : openAfter names piece = some inner) (same : opened.map OpenElement.name = names)
    (content : List Node) (run : List Segment) :
    ∃ openedAfter contentAfter runAfter, List.map OpenElement.name openedAfter = inner ∧
      ∀ rest, grow opened content run (piece :: rest) =
        grow openedAfter contentAfter runAfter rest := by
  cases piece with
  | opening name attributes =>
    obtain rfl := Option.some.inj moves
    refine ⟨⟨name, attributes, addText run content⟩ :: opened, [], [], ?_, fun rest => ?_⟩
    · rw [List.map_cons, same]
    · rw [grow]
  | standalone name attributes =>
    obtain rfl := Option.some.inj moves
    exact ⟨opened, .element name attributes [] true :: addText run content, [], same,
      fun rest => by rw [grow]⟩
  | closing name =>
    cases opened with
    | nil =>
      rw [← same] at moves
      exact absurd moves (by simp [openAfter])
    | cons innermost outer =>
      rw [← same, List.map_cons, openAfter] at moves
      split at moves
      · rename_i matching
        obtain rfl := Option.some.inj moves
        exact ⟨outer, .element name innermost.attributes (addText run content).reverse true ::
          innermost.before, [], rfl, fun rest => by rw [grow, if_pos matching]⟩
      · exact absurd moves (by simp)
  | segment segment =>
    obtain rfl := Option.some.inj moves
    exact ⟨opened, content, segment :: run, same, fun rest => by rw [grow]⟩
  | documentType =>
    obtain rfl := Option.some.inj moves
    exact ⟨opened, addText run content, [], same, fun rest => by rw [grow]⟩
  | aside =>
    obtain rfl := Option.some.inj moves
    exact ⟨opened, content, run, same, fun rest => by rw [grow]⟩

/-- At a place a document is inside the elements that are open there, and all that is left
of its front is the text right in front of the place. -/
theorem LeadsTo.exists_state {names final : List (List Char)} {text : List Char}
    (leads : LeadsTo names front final text) (same : opened.map OpenElement.name = names)
    (content : List Node) (run : List Segment) :
    ∃ openedAfter contentAfter runAfter, List.map OpenElement.name openedAfter = final ∧
      ∀ back, grow opened content run (pieces (front ++ back)) =
        grow openedAfter contentAfter runAfter (pieces (text ++ back)) := by
  induction leads generalizing opened content run with
  | text free => exact ⟨opened, content, run, same, fun back => rfl⟩
  | @markup names inner final raw symbols after text piece free found moves later
      inductionHypothesis =>
    obtain ⟨openedNext, contentNext, runNext, sameNext, steps⟩ :=
      exists_state_of_openAfter moves same content (segmentsOf raw ++ run)
    obtain ⟨openedAfter, contentAfter, runAfter, sameAfter, leads⟩ :=
      inductionHypothesis sameNext contentNext runNext
    refine ⟨openedAfter, contentAfter, runAfter, sameAfter, fun back => ?_⟩
    have opens : Opens ('<' :: (symbols ++ back)) :=
      fun symbol begins => (Option.some.inj begins).symm
    rw [List.append_assoc, List.cons_append, pieces_segmentsOf free opens, grow_segmentsOf,
      pieces_bracket (readMarkup_append found back), steps, leads]

theorem LeadsTo.bracket_notMem {names final : List (List Char)} {text : List Char}
    (leads : LeadsTo names front final text) : '<' ∉ text := by
  induction leads with
  | text free => exact free
  | markup free found moves later inductionHypothesis => exact inductionHypothesis

/-! ## The rest of an element -/

/-- The rest of a document, from a tag on that may close the innermost element. -/
def MayClose (remaining : List Piece) : Prop :=
  ∀ piece ∈ remaining.head?, ∃ name, piece = .closing name

/-- An element ends alike whatever is in it. -/
theorem exists_end (mayClose : MayClose remaining) (name : List Char) :
    ∃ closed rest, rest.length ≤ remaining.length ∧ ∀ attributes before outer content,
      grow (⟨name, attributes, before⟩ :: outer) content [] remaining =
        grow outer (.element name attributes content.reverse closed :: before) [] rest := by
  cases remaining with
  | nil => exact ⟨false, [], Nat.le_refl _, fun attributes before outer content => rfl⟩
  | cons piece rest =>
    obtain ⟨other, rfl⟩ := mayClose piece rfl
    by_cases matching : name = other
    · refine ⟨true, rest, Nat.le_succ _, fun attributes before outer content => ?_⟩
      rw [grow, if_pos matching, matching]
      rfl
    · refine ⟨false, [], Nat.zero_le _, fun attributes before outer content => ?_⟩
      simp only [grow, if_neg matching]
      rfl

private theorem addText_eq (run : List Segment) (content : List Node) :
    addText run content = (textOf run.reverse).toList ++ content := by
  unfold addText
  cases textOf run.reverse <;> rfl

/-- The rest of an element is read alike whatever is in front of it: its first text joins
the run before it, and its nodes follow those before them. -/
theorem exists_level (rest : List Piece) :
    ∃ segments later remaining, MayClose remaining ∧ remaining.length ≤ rest.length ∧
      ∀ opened content run, grow opened content run rest =
        grow opened (later ++ addText (segments ++ run) content) [] remaining := by
  induction isBound : rest.length using Nat.strong_induction_on generalizing rest with
  | _ bound inductionHypothesis =>
    cases rest with
    | nil =>
      exact ⟨[], [], [], fun piece begins => absurd begins (by simp), Nat.zero_le _,
        fun opened content run => rfl⟩
    | cons piece rest =>
      have shorter : rest.length < bound := isBound ▸ Nat.lt_succ_self _
      obtain ⟨segments, later, remaining, mayClose, short, level⟩ :=
        inductionHypothesis _ shorter rest rfl
      have shortStill : remaining.length ≤ bound := Nat.le_trans short (Nat.le_of_lt shorter)
      -- Most pieces end a run, so that what follows begins with a new one.
      have flushed : ∀ opened content, grow opened content [] rest =
          grow opened (later ++ (textOf segments.reverse).toList ++ content) [] remaining := by
        intro opened content
        rw [level, List.append_nil, addText_eq, List.append_assoc]
      cases piece with
      | aside =>
        refine ⟨segments, later, remaining, mayClose, shortStill, fun opened content run => ?_⟩
        rw [grow, level]
      | segment segment =>
        refine ⟨segments ++ [segment], later, remaining, mayClose, shortStill,
          fun opened content run => ?_⟩
        rw [grow, level, List.append_assoc, List.singleton_append]
      | documentType =>
        refine ⟨[], later ++ (textOf segments.reverse).toList, remaining, mayClose, shortStill,
          fun opened content run => ?_⟩
        rw [grow, flushed, List.nil_append]
      | standalone name attributes =>
        refine ⟨[], later ++ (textOf segments.reverse).toList ++ [.element name attributes [] true],
          remaining, mayClose, shortStill, fun opened content run => ?_⟩
        rw [grow, flushed, List.nil_append, List.append_assoc _ [_], List.singleton_append]
      | closing name =>
        refine ⟨[], [], .closing name :: rest, fun piece begins => ⟨name, ?_⟩, Nat.le_of_eq isBound,
          fun opened content run => ?_⟩
        · exact (Option.some.inj begins).symm
        · rw [List.nil_append, List.nil_append]
          cases opened <;> simp only [grow] <;> rfl
      | opening name attributes =>
        obtain ⟨closed, last, shortLast, ends⟩ := exists_end mayClose name
        have shorterLast : last.length < bound :=
          Nat.lt_of_le_of_lt (Nat.le_trans shortLast short) shorter
        obtain ⟨segmentsLast, laterLast, remainingLast, mayCloseLast, shortRemaining, levelLast⟩ :=
          inductionHypothesis _ shorterLast last rfl
        refine ⟨[], laterLast ++ (textOf segmentsLast.reverse).toList ++
          [.element name attributes
            (later ++ (textOf segments.reverse).toList ++ []).reverse closed],
          remainingLast, mayCloseLast, Nat.le_trans shortRemaining (Nat.le_of_lt shorterLast),
          fun opened content run => ?_⟩
        rw [grow, flushed, ends, levelLast, List.append_nil segmentsLast, addText_eq segmentsLast,
          List.nil_append]
        simp only [List.append_assoc, List.singleton_append]

/-- The rest of an element is read into nodes that follow those before it, if no text
is unfinished. -/
theorem exists_siblings (rest : List Piece) :
    ∃ later remaining, MayClose remaining ∧
      ∀ opened content, grow opened content [] rest =
        grow opened (later ++ content) [] remaining := by
  obtain ⟨segments, later, remaining, mayClose, _, level⟩ := exists_level rest
  refine ⟨later ++ (textOf segments.reverse).toList, remaining, mayClose,
    fun opened content => ?_⟩
  rw [level, List.append_nil, addText_eq, List.append_assoc]

theorem grow_top (mayClose : MayClose remaining) (content : List Node) :
    grow [] content [] remaining = content.reverse := by
  cases remaining with
  | nil => rfl
  | cons piece rest =>
    obtain ⟨name, rfl⟩ := mayClose piece rfl
    rw [grow]
    rfl

end ContentStore.Markup
