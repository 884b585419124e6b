import ContentStore.Proofs.Markup.Run

/-!
Contract: elements that are well formed, with all that may stand in them.

Owns:
- `WellFormedContent`, text, sections, comments, instructions and elements to any
  depth, and `WellFormed`, an element with such content;
- `WellFormed.readsAs`, by which a well-formed element is read as one node that is
  sound, wherever it stands.

Does not own: what elements mean.
-/

namespace ContentStore.Markup

/-- What may stand between the tags of an element. -/
inductive WellFormedContent : List Char → Prop where
  | nil : WellFormedContent []
  | text {raw rest : List Char} (some_text : raw ≠ []) (free : '<' ∉ raw)
    (legible : (resolve raw).isSome = true) (opens : Opens rest)
    (later : WellFormedContent rest) : WellFormedContent (raw ++ rest)
  | verbatim {content rest : List Char} (free : ¬ "]]>".toList <:+: content)
    (later : WellFormedContent rest) :
    WellFormedContent ('<' :: ("![CDATA[".toList ++ (content ++ ("]]>".toList ++ rest))))
  | comment {content rest : List Char} (free : ¬ "-->".toList <:+: content)
    (later : WellFormedContent rest) :
    WellFormedContent ('<' :: ("!--".toList ++ (content ++ ("-->".toList ++ rest))))
  | instruction {content rest : List Char} (free : ¬ "?>".toList <:+: content)
    (begins : content.head? ≠ some '>') (later : WellFormedContent rest) :
    WellFormedContent ('<' :: '?' :: (content ++ ("?>".toList ++ rest)))
  | standalone {name attributes rest : List Char} (isName : IsName name)
    (writes : WritesAttributes attributes) (later : WellFormedContent rest) :
    WellFormedContent ('<' :: (name ++ (attributes ++ '/' :: '>' :: rest)))
  | element {name attributes content gap rest : List Char} (isName : IsName name)
    (writes : WritesAttributes attributes) (inner : WellFormedContent content)
    (isGap : IsGap gap) (later : WellFormedContent rest) :
    WellFormedContent ('<' :: (name ++ (attributes ++ '>' ::
      (content ++ '<' :: '/' :: (name ++ (gap ++ '>' :: rest))))))

/-- An element of a given name, in one tag or in two with content between them. -/
inductive WellFormed (name : List Char) : List Char → Prop where
  | standalone {attributes : List Char} (isName : IsName name)
    (writes : WritesAttributes attributes) :
    WellFormed name ('<' :: (name ++ (attributes ++ ['/', '>'])))
  | element {attributes content gap : List Char} (isName : IsName name)
    (writes : WritesAttributes attributes) (inner : WellFormedContent content)
    (isGap : IsGap gap) :
    WellFormed name ('<' :: (name ++ (attributes ++ '>' ::
      (content ++ '<' :: '/' :: (name ++ (gap ++ ['>']))))))

variable {symbols name attributes content gap : List Char} {nodes : List Node}
  {run : List Segment} {node : Node}

/-! ## Reading elements -/

private theorem allSound_iff :
    Node.allSound nodes = true ↔ ∀ node ∈ nodes, node.isSound = true := by
  induction nodes with
  | nil => exact iff_of_true rfl (List.forall_mem_nil _)
  | cons node rest inductionHypothesis =>
    rw [Node.allSound, Bool.and_eq_true, inductionHypothesis, List.forall_mem_cons]

theorem allSound_append {front back : List Node} : Node.allSound (front ++ back) = true ↔
    Node.allSound front = true ∧ Node.allSound back = true := by
  simp only [allSound_iff, List.forall_mem_append]

/-- All nodes and all text that have been read are sound. -/
structure Legible (nodes : List Node) (run : List Segment) : Prop where
  nodes : Node.allSound nodes = true
  run : ∀ segment ∈ run, segment.IsLegible

private theorem Legible.addText (legible : Legible nodes run) :
    Node.allSound (addText run nodes) = true := by
  have text : Node.allSound (textOf run.reverse).toList = true :=
    allSound_textOf.mpr fun segment member => legible.run segment (List.mem_reverse.mp member)
  unfold Markup.addText
  cases isText : textOf run.reverse with
  | none => exact legible.nodes
  | some node =>
    rw [isText] at text
    exact allSound_append.mpr ⟨text, legible.nodes⟩

/-- Something is read into sound nodes and legible text, and then whatever follows it, if
that begins in a certain way. -/
def ReadsLegibly (Follows : List Char → Prop) (symbols : List Char) : Prop :=
  ∃ read, (∀ rest, Follows rest → pieces (symbols ++ rest) = read ++ pieces rest) ∧
    ∀ nodes run, Legible nodes run → ∃ grown later, Legible grown later ∧
      ∀ opened rest, grow opened nodes run (read ++ rest) = grow opened grown later rest

/-- What markup looks like does not depend on what follows it. -/
abbrev ReadsAlways (symbols : List Char) : Prop :=
  ReadsLegibly (fun _ => True) symbols

/-- A node is read, after the text before it. -/
def ReadsAs (symbols : List Char) (node : Node) : Prop :=
  ∃ read, (∀ rest, pieces (symbols ++ rest) = read ++ pieces rest) ∧
    ∀ opened nodes run rest, grow opened nodes run (read ++ rest) =
      grow opened (node :: addText run nodes) [] rest

theorem opens_bracket (rest : List Char) : Opens ('<' :: rest) :=
  fun _ begins => (Option.some.inj begins).symm

private theorem readsAs_standalone (isName : IsName name) (writes : WritesAttributes attributes) :
    ReadsAs ('<' :: (name ++ (attributes ++ ['/', '>']))) (.element name attributes [] true) := by
  refine ⟨[.standalone name attributes], fun rest => ?_, fun opened nodes run rest => ?_⟩
  · have read := pieces_bracket (writes.followsName.readMarkup_standalone isName rest)
    simpa using read
  · rw [List.singleton_append, grow]

private theorem readsAs_element (isName : IsName name) (writes : WritesAttributes attributes)
    (inner : ReadsLegibly Opens content) (isGap : IsGap gap) :
    ∃ nodes, Node.allSound nodes = true ∧
      ReadsAs ('<' :: (name ++ (attributes ++ '>' ::
        (content ++ '<' :: '/' :: (name ++ (gap ++ ['>']))))))
        (.element name attributes nodes true) := by
  obtain ⟨read, readsInner, grows⟩ := inner
  obtain ⟨grown, later, legible, growsInner⟩ := grows [] [] ⟨rfl, List.forall_mem_nil _⟩
  refine ⟨(addText later grown).reverse, ?_,
    .opening name attributes :: (read ++ [.closing name]), fun rest => ?_,
    fun opened nodes run rest => ?_⟩
  · rw [allSound_iff]
    intro node member
    exact allSound_iff.mp legible.addText node (List.mem_reverse.mp member)
  · have closes := pieces_bracket (readMarkup_closing_gap isName isGap rest)
    have readContent := readsInner _ (opens_bracket ('/' :: (name ++ (gap ++ '>' :: rest))))
    have opensTag := pieces_bracket (writes.followsName.readMarkup_opening isName
      (content ++ '<' :: '/' :: (name ++ (gap ++ '>' :: rest))))
    rw [readContent, closes] at opensTag
    simpa using opensTag
  · rw [List.cons_append, List.append_assoc, List.singleton_append, grow, growsInner, grow,
      if_pos rfl]

namespace ReadsLegibly

variable {Follows : List Char → Prop} {front back raw : List Char} {segment : Segment}

private theorem nil : ReadsLegibly Opens [] :=
  ⟨[], fun _ _ => rfl, fun nodes run legible => ⟨nodes, run, legible, fun _ _ => rfl⟩⟩

private theorem append (first : ReadsLegibly Follows front) (second : ReadsLegibly Opens back)
    (apart : ∀ rest, Opens rest → Follows (back ++ rest)) :
    ReadsLegibly Opens (front ++ back) := by
  obtain ⟨read, reads, grows⟩ := first
  obtain ⟨readLater, readsLater, growsLater⟩ := second
  refine ⟨read ++ readLater, fun rest opens => ?_, fun nodes run legible => ?_⟩
  · rw [List.append_assoc, reads _ (apart rest opens), readsLater rest opens, List.append_assoc]
  · obtain ⟨grown, later, legibleGrown, grew⟩ := grows nodes run legible
    obtain ⟨grownLater, last, legibleLater, grewLater⟩ := growsLater grown later legibleGrown
    refine ⟨grownLater, last, legibleLater, fun opened rest => ?_⟩
    rw [List.append_assoc, grew, grewLater]

private theorem append_always (first : ReadsAlways front) (second : ReadsLegibly Opens back) :
    ReadsLegibly Opens (front ++ back) :=
  append first second fun _ _ => trivial

private theorem of_readsAs (sound : node.isSound = true) (readsAs : ReadsAs symbols node) :
    ReadsAlways symbols := by
  obtain ⟨read, reads, grows⟩ := readsAs
  refine ⟨read, fun rest _ => reads rest, fun nodes run legible => ?_⟩
  have soundGrown : Node.allSound (node :: addText run nodes) = true := by
    rw [Node.allSound, sound, legible.addText]
    rfl
  exact ⟨_, [], ⟨soundGrown, List.forall_mem_nil _⟩, fun opened rest => grows opened nodes run rest⟩

private theorem of_segment (isLegible : segment.IsLegible)
    (reads : ∀ rest, Follows rest → pieces (symbols ++ rest) = .segment segment :: pieces rest) :
    ReadsLegibly Follows symbols := by
  refine ⟨[.segment segment], reads, fun nodes run legible => ?_⟩
  have legibleRun : ∀ other ∈ segment :: run, other.IsLegible :=
    List.forall_mem_cons.mpr ⟨isLegible, legible.run⟩
  refine ⟨nodes, segment :: run, ⟨legible.nodes, legibleRun⟩, fun opened rest => ?_⟩
  rw [List.singleton_append, grow]

private theorem of_aside (reads : ∀ rest, pieces (symbols ++ rest) = .aside :: pieces rest) :
    ReadsAlways symbols := by
  refine ⟨[.aside], fun rest _ => reads rest, fun nodes run legible => ?_⟩
  refine ⟨nodes, run, legible, fun opened rest => ?_⟩
  rw [List.singleton_append, grow]

end ReadsLegibly

open ReadsLegibly in
/-- Well-formed content is read up to the tag that follows it. -/
theorem WellFormedContent.readsLegibly (wellFormed : WellFormedContent symbols) :
    ReadsLegibly Opens symbols := by
  induction wellFormed with
  | nil => exact .nil
  | @text raw rest some_text free legible opens later inductionHypothesis =>
    have isLegible : (Segment.plain raw).IsLegible := legible
    have reads := of_segment isLegible fun rest => pieces_plain some_text free
    refine reads.append inductionHypothesis fun after opensAfter symbol begins => ?_
    cases rest with
    | nil => exact opensAfter symbol begins
    | cons first more => exact opens symbol begins
  | @verbatim content rest free later inductionHypothesis =>
    have isLegible : (Segment.verbatim content).IsLegible := rfl
    have reads : ReadsAlways ('<' :: ("![CDATA[".toList ++ (content ++ "]]>".toList))) :=
      of_segment isLegible fun after _ => by
        simpa using pieces_bracket (readMarkup_verbatim free after)
    simpa using reads.append_always inductionHypothesis
  | @comment content rest free later inductionHypothesis =>
    have reads : ReadsAlways ('<' :: ("!--".toList ++ (content ++ "-->".toList))) :=
      of_aside fun after => by
        simpa using pieces_bracket (readMarkup_comment free after)
    simpa using reads.append_always inductionHypothesis
  | @instruction content rest free begins later inductionHypothesis =>
    have reads : ReadsAlways ('<' :: '?' :: (content ++ "?>".toList)) :=
      of_aside fun after => by
        simpa using pieces_bracket (readMarkup_instruction free begins after)
    simpa using reads.append_always inductionHypothesis
  | standalone isName writes later inductionHypothesis =>
    have reads := of_readsAs rfl (readsAs_standalone isName writes)
    simpa using reads.append_always inductionHypothesis
  | element isName writes inner isGap later readsInner inductionHypothesis =>
    obtain ⟨nodes, sound, readsAs⟩ := readsAs_element isName writes readsInner isGap
    have reads := of_readsAs (by rw [Node.isSound, sound]; rfl) readsAs
    simpa using reads.append_always inductionHypothesis

theorem WellFormed.opens (wellFormed : WellFormed name symbols) (rest : List Char) :
    Opens (symbols ++ rest) := by
  cases wellFormed <;> exact opens_bracket _

/-- A well-formed element is read as one sound node, wherever it stands. -/
theorem WellFormed.readsAs (wellFormed : WellFormed name symbols) :
    ∃ attributes content, Node.allSound content = true ∧
      ReadsAs symbols (.element name attributes content true) := by
  cases wellFormed with
  | @standalone attributes isName writes =>
    exact ⟨attributes, [], rfl, readsAs_standalone isName writes⟩
  | @element attributes content gap isName writes inner isGap =>
    obtain ⟨nodes, sound, readsAs⟩ :=
      readsAs_element isName writes inner.readsLegibly isGap
    exact ⟨attributes, nodes, sound, readsAs⟩

end ContentStore.Markup
