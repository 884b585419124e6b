import ContentStore.Proofs.Markup.Element
import ContentStore.Proofs.Markup.Place

/-!
Contract: elements that are put into a document.

Owns:
- `Inserts`, by which siblings become others by one more node, and `InsertsIn`, by which
  they are those of the element at the end of a path;
- `LeadsTo.inserts`, by which an element that is put at a place of a document becomes a
  node in the element that is open there, and all else is read as before.

Does not own: what the nodes mean.
-/

namespace ContentStore.Markup

variable {added child child' node node' : Node} {content content' : List Node}
  {name attributes raw front symbols : List Char} {closed : Bool} {path names : List (List Char)}
  {run : List Segment}

/-- A run of text is taken apart by something between its parts.  Neither part is
worse than the whole, but each loses the blanks at its ends. -/
structure Cuts (whole left right : List Segment) : Prop where
  blank : (∀ segment ∈ whole, segment.IsBlank) →
    (∀ segment ∈ left, segment.IsBlank) ∧ ∀ segment ∈ right, segment.IsBlank
  legible : (∀ segment ∈ whole, segment.IsLegible) →
    (∀ segment ∈ left, segment.IsLegible) ∧ ∀ segment ∈ right, segment.IsLegible

/-- Siblings become others by one more node, which may stand in the midst of a text. -/
inductive Inserts (added : Node) : List Node → List Node → Prop where
  | between {before after : List Node} {whole left right : List Segment}
    (cuts : Cuts whole left right) :
    Inserts added (before ++ ((textOf whole).toList ++ after))
      (before ++ ((textOf left).toList ++ added :: ((textOf right).toList ++ after)))

/-- An element becomes another by one more node in the element at the end of a path,
outermost name first. -/
inductive InsertsIn (added : Node) : List (List Char) → Node → Node → Prop where
  | here {name attributes : List Char} {content content' : List Node} {closed : Bool}
    (inserts : Inserts added content content') :
    InsertsIn added [name] (.element name attributes content closed)
      (.element name attributes content' closed)
  | inside {name attributes : List Char} {before after : List Node} {child child' : Node}
    {closed : Bool} {path : List (List Char)} (deeper : InsertsIn added path child child') :
    InsertsIn added (name :: path) (.element name attributes (before ++ child :: after) closed)
      (.element name attributes (before ++ child' :: after) closed)

theorem InsertsIn.exists_elements (inserts : InsertsIn added path node node') :
    ∃ name later attributes content content' closed, path = name :: later ∧
      node = .element name attributes content closed ∧
        node' = .element name attributes content' closed := by
  cases inserts with
  | here inserts => exact ⟨_, _, _, _, _, _, rfl, rfl, rfl⟩
  | inside deeper => exact ⟨_, _, _, _, _, _, rfl, rfl, rfl⟩

/-! ## Soundness -/

private theorem Inserts.allSound (inserts : Inserts added content content')
    (soundAdded : added.isSound = true) (sound : Node.allSound content = true) :
    Node.allSound content' = true := by
  obtain @⟨before, after, whole, left, right, cuts⟩ := inserts
  simp only [allSound_append, Node.allSound, Bool.and_eq_true, allSound_textOf] at sound ⊢
  obtain ⟨soundBefore, legible, soundAfter⟩ := sound
  obtain ⟨legibleLeft, legibleRight⟩ := cuts.legible legible
  exact ⟨soundBefore, legibleLeft, soundAdded, legibleRight, soundAfter⟩

theorem InsertsIn.isSound (inserts : InsertsIn added path node node')
    (soundAdded : added.isSound = true) (sound : node.isSound = true) : node'.isSound = true := by
  induction inserts with
  | here inserts =>
    rw [Node.isSound, Bool.and_eq_true] at sound ⊢
    exact ⟨sound.1, inserts.allSound soundAdded sound.2⟩
  | inside deeper inductionHypothesis =>
    simp only [Node.isSound, allSound_append, Node.allSound, Bool.and_eq_true] at sound ⊢
    obtain ⟨isClosed, soundBefore, soundChild, soundAfter⟩ := sound
    exact ⟨isClosed, soundBefore, inductionHypothesis soundChild, soundAfter⟩

/-! ## Text that is taken apart -/

private theorem forall_segmentsOf {Holds : Segment → Prop} (void : Holds (.plain [])) :
    (∀ segment ∈ segmentsOf raw, Holds segment) ↔ Holds (.plain raw) := by
  unfold segmentsOf
  split
  · rename_i isVoid
    rw [isVoid]
    exact iff_of_true (List.forall_mem_nil _) void
  · exact List.forall_mem_singleton

/-- A text that is cut outside its references is taken apart with the run that it is in. -/
theorem cuts_segmentsOf {later : List Char}
    (outside : (resolve (raw ++ later)).isSome = true → endsInside false raw = false)
    (segments run : List Segment) :
    Cuts (segments ++ (segmentsOf (raw ++ later) ++ run)).reverse
      (segmentsOf raw ++ run).reverse (segments ++ segmentsOf later).reverse := by
  have blankVoid : (Segment.plain []).IsBlank := List.forall_mem_nil _
  have legibleVoid : (Segment.plain []).IsLegible := rfl
  constructor
  · simp only [List.mem_reverse, List.forall_mem_append, forall_segmentsOf blankVoid]
    rintro ⟨blankSegments, blankText, blankRun⟩
    obtain ⟨blankFront, blankLater⟩ := isGap_append.mp blankText
    exact ⟨⟨blankFront, blankRun⟩, blankSegments, blankLater⟩
  · simp only [List.mem_reverse, List.forall_mem_append, forall_segmentsOf legibleVoid]
    rintro ⟨legibleSegments, legibleText, legibleRun⟩
    obtain ⟨legibleFront, legibleLater⟩ :=
      (isSome_resolve_append (outside legibleText)).mp legibleText
    exact ⟨⟨legibleFront, legibleRun⟩, legibleSegments, legibleLater⟩

private theorem inserts_of_cuts {whole left right : List Segment}
    (cuts : Cuts whole.reverse left.reverse right.reverse) (later content : List Node) :
    Inserts added (later ++ addText whole content).reverse
      (later ++ addText right (added :: addText left content)).reverse := by
  simp only [List.reverse_append, List.reverse_cons, reverse_addText, List.append_assoc,
    List.singleton_append]
  exact .between cuts

/-! ## Reading what is put into a document -/

/-- What is read after a child that was changed, inside some elements, changes no more
than that child and the elements it is in. -/
theorem exists_of_insertsIn (opened : List OpenElement) (remaining : List Piece)
    (later earlier : List Node) (inserts : InsertsIn added path child child') :
    ∃ before after node node',
      InsertsIn added ((opened.map OpenElement.name).reverse ++ path) node node' ∧
        grow opened (later ++ child :: earlier) [] remaining = before ++ node :: after ∧
          grow opened (later ++ child' :: earlier) [] remaining = before ++ node' :: after := by
  obtain ⟨siblings, closing, mayClose, reads⟩ := exists_siblings remaining
  induction opened generalizing remaining later earlier path child child' siblings closing with
  | nil =>
    refine ⟨earlier.reverse, (siblings ++ later).reverse, child, child', inserts, ?_, ?_⟩ <;>
      rw [reads, grow_top mayClose] <;> simp
  | cons innermost outer inductionHypothesis =>
    -- The element around the child ends alike in both readings, and is a changed child
    -- of the next element in turn.
    obtain ⟨closed, rest, _, ends⟩ := exists_end mayClose innermost.name
    obtain ⟨siblingsOuter, closingOuter, mayCloseOuter, readsOuter⟩ := exists_siblings rest
    have inside : InsertsIn added (innermost.name :: path)
        (.element innermost.name innermost.attributes
          (earlier.reverse ++ child :: (siblings ++ later).reverse) closed)
        (.element innermost.name innermost.attributes
          (earlier.reverse ++ child' :: (siblings ++ later).reverse) closed) := .inside inserts
    obtain ⟨before, after, node, node', insertsOuter, whole, wholeAfter⟩ :=
      inductionHypothesis rest [] innermost.before inside siblingsOuter closingOuter
        mayCloseOuter readsOuter
    refine ⟨before, after, node, node', ?_, ?_, ?_⟩
    · rw [List.map_cons, List.reverse_cons, List.append_assoc]
      exact insertsOuter
    · rw [reads, ends, ← whole]
      simp
    · rw [reads, ends, ← wholeAfter]
      simp

/-- A well-formed element that is put at a place of a document becomes a node of the element
that is open there, and everything else is read as it was before. -/
theorem LeadsTo.inserts {back : List Char} (leads : LeadsTo [] front names raw)
    (some_open : names ≠ []) (uncut : cutsReference raw back = false)
    (wellFormed : WellFormed name symbols) :
    ∃ attributes content before after node node', Node.allSound content = true ∧
      InsertsIn (.element name attributes content true) names.reverse node node' ∧
        nodes (front ++ back) = before ++ node :: after ∧
          nodes (front ++ (symbols ++ back)) = before ++ node' :: after := by
  obtain ⟨attributes, added, sound, read, reads, grows⟩ := wellFormed.readsAs
  obtain ⟨opened, content, run, sameNames, state⟩ := leads.exists_state List.map_nil [] []
  have free := leads.bracket_notMem
  -- What follows the place begins with some text, which may belong to one before it.
  obtain ⟨text, rest, rfl, freeText, opens⟩ := exists_text back
  obtain ⟨segments, later, remaining, mayClose, _, level⟩ := exists_level (pieces rest)
  have isWhole : nodes (front ++ (text ++ rest)) =
      grow opened (later ++ addText (segments ++ (segmentsOf (raw ++ text) ++ run)) content) []
        remaining := by
    have freeBoth : '<' ∉ raw ++ text := by
      rw [List.mem_append, not_or]
      exact ⟨free, freeText⟩
    unfold nodes
    rw [state, ← List.append_assoc, pieces_segmentsOf freeBoth opens, grow_segmentsOf, level]
  have isTaken : nodes (front ++ (symbols ++ (text ++ rest))) =
      grow opened (later ++ addText (segments ++ segmentsOf text)
        (.element name attributes added true :: addText (segmentsOf raw ++ run) content)) []
        remaining := by
    unfold nodes
    rw [state, pieces_segmentsOf free (wellFormed.opens _), grow_segmentsOf, reads, grows,
      pieces_segmentsOf freeText opens, grow_segmentsOf, List.append_nil, level]
  cases opened with
  | nil => exact absurd sameNames.symm some_open
  | cons innermost outer =>
    obtain ⟨closed, last, _, ends⟩ := exists_end mayClose innermost.name
    have cuts := cuts_segmentsOf (endsInside_of_cutsReference freeText uncut) segments run
    obtain ⟨before, after, node, node', insertsIn, whole, taken⟩ :=
      exists_of_insertsIn outer last [] innermost.before
        (.here (inserts_of_cuts cuts later content))
    refine ⟨attributes, added, before, after, node, node', sound, ?_, ?_, ?_⟩
    · rw [← sameNames, List.map_cons, List.reverse_cons]
      exact insertsIn
    · rw [isWhole, ends, ← whole, List.nil_append]
    · rw [isTaken, ends, ← taken, List.nil_append]

end ContentStore.Markup
