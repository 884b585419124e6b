import ContentStore.Proofs.Markup.Tag

/-!
Contract: documents as trees, and how they are written and read.

Owns:
- `Tree`, an element with its content, or something else that stands between
  tags, and how trees are written;
- `Tree.Sound`, by which what is written can be told apart again;
- `nodesOf`, the nodes that trees stand for;
- `grow_tree`, by which a tree becomes its nodes wherever it is written;
- `nodes_writeAll`, by which a document is read into the nodes of its trees.

Does not own: what elements mean.
-/

namespace ContentStore.Markup

/-- A part of a document. -/
inductive Tree where
  | element (tag : Tag) (content : List Tree)
  /-- An element without content, in a tag of its own. -/
  | standalone (tag : Tag)
  /-- Text up to the next bracket. -/
  | plain (raw : List Char)
  | verbatim (content : List Char)
  | comment (content : List Char)
  | instruction (content : List Char)

namespace Tree

def isPlain : Tree → Bool
  | plain _ => true
  | _ => false

mutual

def write : Tree → List Char
  | element tag content =>
    '<' :: (tag.text ++ '>' :: (writeAll content ++ '<' :: '/' :: (tag.name ++ ['>'])))
  | standalone tag => '<' :: (tag.text ++ ['/', '>'])
  | plain raw => raw
  | verbatim content => '<' :: ("![CDATA[".toList ++ (content ++ "]]>".toList))
  | comment content => '<' :: ("!--".toList ++ (content ++ "-->".toList))
  | instruction content => '<' :: '?' :: (content ++ "?>".toList)

def writeAll : List Tree → List Char
  | [] => []
  | tree :: rest => tree.write ++ writeAll rest

end

mutual

/-- Whether a tree can be read again as it was written. -/
def Sound : Tree → Prop
  | element tag content => tag.Sound ∧ AllSound content
  | standalone tag => tag.Sound
  | plain raw => raw ≠ [] ∧ '<' ∉ raw ∧ (resolve raw).isSome
  | verbatim content => ¬ "]]>".toList <:+: content
  | comment content => ¬ "-->".toList <:+: content
  | instruction content => ¬ "?>".toList <:+: content ∧ content.head? ≠ some '>'

/-- Two texts in a row would be read as one. -/
def AllSound : List Tree → Prop
  | [] => True
  | tree :: rest =>
    Sound tree ∧ AllSound rest ∧ (tree.isPlain = true → ∀ next ∈ rest.head?, next.isPlain = false)

end

theorem allSound_nil : AllSound [] := by
  rw [AllSound]
  trivial

theorem allSound_singleton {tree : Tree} (sound : tree.Sound) : AllSound [tree] := by
  rw [AllSound]
  exact ⟨sound, allSound_nil, by simp⟩

/-- What is not a text can stand before anything. -/
theorem allSound_cons_of_not_text {tree : Tree} {rest : List Tree} (sound : tree.Sound)
    (notText : tree.isPlain = false) (soundRest : AllSound rest) : AllSound (tree :: rest) := by
  rw [AllSound]
  refine ⟨sound, soundRest, ?_⟩
  intro isText
  rw [notText] at isText
  exact absurd isText Bool.false_ne_true

/-- Elements one after the other are sound if each of them is. -/
theorem allSound_of_elements {trees : List Tree}
    (each : ∀ tree ∈ trees, tree.Sound ∧ tree.isPlain = false) : AllSound trees := by
  induction trees with
  | nil => exact allSound_nil
  | cons tree rest inductionHypothesis =>
    obtain ⟨sound, element⟩ := each tree List.mem_cons_self
    apply allSound_cons_of_not_text sound element
    exact inductionHypothesis fun other member => each other (List.mem_cons_of_mem _ member)

theorem sound_element {name : String} (isName : IsName name.toList) {content : List Tree}
    (sound : AllSound content) : (element (.named name) content).Sound := by
  rw [Sound]
  exact ⟨Tag.sound_named isName, sound⟩

mutual

def pieces : Tree → List Piece
  | element tag content =>
    .opening tag.name tag.attributeText :: (piecesOfAll content ++ [.closing tag.name])
  | standalone tag => [.standalone tag.name tag.attributeText]
  | plain raw => [.segment (.plain raw)]
  | verbatim content => [.segment (.verbatim content)]
  | comment _ => [.aside]
  | instruction _ => [.aside]

def piecesOfAll : List Tree → List Piece
  | [] => []
  | tree :: rest => tree.pieces ++ piecesOfAll rest

end

end Tree

open ContentStore.Markup.Tree

variable {tree : Tree} {trees : List Tree} {rest raw : List Char}

/-! ## Writing and reading pieces -/

/-- A text ends before a bracket, or at the end of the document. -/
def Opens (rest : List Char) : Prop :=
  ∀ symbol ∈ rest.head?, symbol = '<'

theorem opens_write (notPlain : tree.isPlain = false) (rest : List Char) :
    Opens (tree.write ++ rest) := by
  intro symbol begins
  cases tree with
  | plain raw => exact absurd notPlain (by simp [isPlain])
  | _ =>
    rw [write] at begins
    exact (Option.some.inj begins).symm

private theorem opens_writeAll (opens : Opens rest)
    (separate : ∀ next ∈ trees.head?, next.isPlain = false) : Opens (writeAll trees ++ rest) := by
  cases trees with
  | nil => exact opens
  | cons next later =>
    rw [writeAll, List.append_assoc]
    exact opens_write (separate next rfl) _

theorem pieces_bracket {piece : Piece} {symbols after : List Char}
    (found : readMarkup symbols = some (piece, after)) :
    pieces ('<' :: symbols) = piece :: pieces after := by
  rw [pieces, if_pos rfl]
  split
  · rename_i other later same
    rw [found] at same
    obtain ⟨rfl, rfl⟩ := Prod.mk.inj (Option.some.inj same)
    rfl
  · rename_i none
    rw [found] at none
    exact absurd none (by simp)

theorem pieces_plain (some_text : raw ≠ []) (free : '<' ∉ raw) (opens : Opens rest) :
    pieces (raw ++ rest) = .segment (.plain raw) :: pieces rest := by
  obtain ⟨first, more, rfl⟩ := List.exists_cons_of_ne_nil some_text
  have notFirst : first ≠ '<' := fun same => free (same ▸ List.mem_cons_self)
  have notLater : ∀ symbol ∈ more, (symbol != '<') = true := by
    intro symbol member
    rw [bne_iff_ne]
    rintro rfl
    exact free (List.mem_cons_of_mem _ member)
  have ends : rest.takeWhile (· != '<') = [] ∧ rest.dropWhile (· != '<') = rest := by
    cases rest with
    | nil => exact ⟨rfl, rfl⟩
    | cons bracket later =>
      rw [opens bracket rfl]
      exact ⟨rfl, rfl⟩
  rw [List.cons_append, pieces, if_neg notFirst, List.takeWhile_append_of_pos notLater,
    List.dropWhile_append_of_pos notLater, ends.1, ends.2, List.append_nil]

mutual

/-- A tree is read into its pieces, whatever follows it. -/
theorem pieces_write (tree : Tree) (sound : tree.Sound) (rest : List Char)
    (separate : tree.isPlain = true → Opens rest) :
    pieces (tree.write ++ rest) = tree.pieces ++ pieces rest := by
  match tree with
  | .element tag content =>
    rw [Sound] at sound
    have opens : Opens ('<' :: '/' :: (tag.name ++ '>' :: rest)) :=
      fun symbol begins => (Option.some.inj begins).symm
    have inner := pieces_writeAll content sound.2 _ opens
    simp only [write, Tree.pieces, List.cons_append, List.append_assoc, List.nil_append]
    rw [pieces_bracket (Tag.readMarkup_opening sound.1 _), inner,
      pieces_bracket (readMarkup_closing sound.1.name rest)]
  | .standalone tag =>
    rw [Sound] at sound
    simp only [write, Tree.pieces, List.cons_append, List.append_assoc, List.nil_append]
    rw [pieces_bracket (Tag.readMarkup_standalone sound rest)]
  | .plain raw =>
    rw [Sound] at sound
    exact pieces_plain sound.1 sound.2.1 (separate rfl)
  | .verbatim content =>
    rw [Sound] at sound
    simp only [write, Tree.pieces, List.cons_append, List.append_assoc, List.nil_append]
    rw [pieces_bracket (readMarkup_verbatim sound rest)]
  | .comment content =>
    rw [Sound] at sound
    simp only [write, Tree.pieces, List.cons_append, List.append_assoc, List.nil_append]
    rw [pieces_bracket (readMarkup_comment sound rest)]
  | .instruction content =>
    rw [Sound] at sound
    simp only [write, Tree.pieces, List.cons_append, List.append_assoc, List.nil_append]
    rw [pieces_bracket (readMarkup_instruction sound.1 sound.2 rest)]

private theorem pieces_writeAll (trees : List Tree) (sound : AllSound trees) (rest : List Char)
    (opens : Opens rest) :
    pieces (writeAll trees ++ rest) = piecesOfAll trees ++ pieces rest := by
  match trees with
  | [] => rfl
  | tree :: later =>
    rw [AllSound] at sound
    obtain ⟨soundTree, soundLater, apart⟩ := sound
    rw [writeAll, piecesOfAll, List.append_assoc, List.append_assoc,
      pieces_write tree soundTree _ (fun isPlain => opens_writeAll opens (apart isPlain)),
      pieces_writeAll later soundLater rest opens]

end

/-! ## Nodes -/

/-- The nodes that trees stand for, after a run of text, latest segment first. -/
def nodesAfter (run : List Segment) : List Tree → List Node
  | [] => (textOf run.reverse).toList
  | .element tag content :: rest =>
    (textOf run.reverse).toList ++
      .element tag.name tag.attributeText (nodesAfter [] content) true :: nodesAfter [] rest
  | .standalone tag :: rest =>
    (textOf run.reverse).toList ++
      .element tag.name tag.attributeText [] true :: nodesAfter [] rest
  | .plain raw :: rest => nodesAfter (.plain raw :: run) rest
  | .verbatim content :: rest => nodesAfter (.verbatim content :: run) rest
  | .comment _ :: rest => nodesAfter run rest
  | .instruction _ :: rest => nodesAfter run rest

/-- The nodes that trees stand for. -/
def nodesOf (trees : List Tree) : List Node :=
  nodesAfter [] trees

variable {run : List Segment} {content before : List Node} {opened outer : List OpenElement}
  {name attributes : List Char}

theorem reverse_addText (run : List Segment) (content : List Node) :
    (addText run content).reverse = content.reverse ++ (textOf run.reverse).toList := by
  unfold addText
  cases textOf run.reverse with
  | none => simp
  | some node => simp

mutual

/-- A tree is read after some nodes and a run of text, whatever is open and whatever
follows, and this leaves other nodes and another run: those that the tree stands
for. -/
theorem grow_tree (tree : Tree) (content : List Node) (run : List Segment) :
    ∃ grown later,
      (∀ opened rest, grow opened content run (tree.pieces ++ rest) =
        grow opened grown later rest) ∧
      ∀ trees, content.reverse ++ nodesAfter run (tree :: trees) =
        grown.reverse ++ nodesAfter later trees := by
  match tree with
  | .element tag inner =>
    obtain ⟨grown, later, grows, becomes⟩ := grow_trees inner [] []
    refine ⟨.element tag.name tag.attributeText (nodesOf inner) true :: addText run content, [],
      ?_, ?_⟩
    · intro opened rest
      rw [Tree.pieces, List.cons_append, List.append_assoc, grow, grows, List.singleton_append,
        grow, if_pos rfl, ← becomes]
      rfl
    · intro trees
      rw [nodesAfter, List.reverse_cons, reverse_addText, List.append_assoc, List.append_assoc]
      rfl
  | .standalone tag =>
    refine ⟨.element tag.name tag.attributeText [] true :: addText run content, [], ?_, ?_⟩
    · intro opened rest
      rw [Tree.pieces, List.singleton_append, grow]
    · intro trees
      rw [nodesAfter, List.reverse_cons, reverse_addText, List.append_assoc, List.append_assoc]
      rfl
  | .plain raw =>
    refine ⟨content, .plain raw :: run, fun opened rest => ?_, fun trees => ?_⟩
    · rw [Tree.pieces, List.singleton_append, grow]
    · rw [nodesAfter]
  | .verbatim raw =>
    refine ⟨content, .verbatim raw :: run, fun opened rest => ?_, fun trees => ?_⟩
    · rw [Tree.pieces, List.singleton_append, grow]
    · rw [nodesAfter]
  | .comment raw =>
    refine ⟨content, run, fun opened rest => ?_, fun trees => ?_⟩
    · rw [Tree.pieces, List.singleton_append, grow]
    · rw [nodesAfter]
  | .instruction raw =>
    refine ⟨content, run, fun opened rest => ?_, fun trees => ?_⟩
    · rw [Tree.pieces, List.singleton_append, grow]
    · rw [nodesAfter]

private theorem grow_trees (trees : List Tree) (content : List Node) (run : List Segment) :
    ∃ grown later,
      (∀ opened rest, grow opened content run (piecesOfAll trees ++ rest) =
        grow opened grown later rest) ∧
      content.reverse ++ nodesAfter run trees = (addText later grown).reverse := by
  match trees with
  | [] =>
    refine ⟨content, run, fun opened rest => ?_, ?_⟩
    · rw [piecesOfAll, List.nil_append]
    · rw [nodesAfter, reverse_addText]
  | tree :: others =>
    obtain ⟨between, after, grows, becomes⟩ := grow_tree tree content run
    obtain ⟨grown, later, growsOthers, becomesOthers⟩ := grow_trees others between after
    refine ⟨grown, later, fun opened rest => ?_, ?_⟩
    · rw [piecesOfAll, List.append_assoc, grows, growsOthers]
    · rw [becomes, becomesOthers]

end

private theorem grow_document (trees : List Tree) :
    grow [] [] [] (piecesOfAll trees) = nodesOf trees := by
  obtain ⟨grown, later, grows, becomes⟩ := grow_trees trees [] []
  have ending := grows [] []
  rw [List.append_nil, grow, finish, ← becomes] at ending
  exact ending

/-- A document is read into the nodes of the trees that it was written from. -/
theorem nodes_writeAll (sound : AllSound trees) : nodes (writeAll trees) = nodesOf trees := by
  have opens : Opens [] := fun symbol begins => absurd begins (by simp)
  have read := pieces_writeAll trees sound [] opens
  rw [List.append_nil, show pieces [] = [] by rw [pieces], List.append_nil] at read
  unfold nodes
  rw [read, grow_document]

/-! ## What stands for no node -/

/-- White space, a comment or an instruction. -/
def Tree.IsMisc : Tree → Prop
  | plain raw => IsGap raw
  | comment _ => True
  | instruction _ => True
  | _ => False

def Segment.IsBlank : Segment → Prop
  | plain raw => IsGap raw
  | verbatim _ => False

private theorem trimRunStart_append {blanks : List Segment}
    (blank : ∀ segment ∈ blanks, segment.IsBlank)
    (run : List Segment) : trimRunStart (blanks ++ run) = trimRunStart run := by
  induction blanks with
  | nil => rfl
  | cons segment later inductionHypothesis =>
    have isBlank := blank segment List.mem_cons_self
    cases segment with
    | verbatim content => exact isBlank.elim
    | plain raw =>
      have void : Text.trimStart Markup.isBlank raw = [] := trimStart_of_isGap isBlank
      rw [List.cons_append, trimRunStart, void]
      exact inductionHypothesis fun other member => blank other (List.mem_cons_of_mem _ member)

/-- Blanks before a text do not belong to it. -/
theorem nodesAfter_append {blanks : List Segment} (blank : ∀ segment ∈ blanks, segment.IsBlank)
    (run : List Segment) (trees : List Tree) :
    nodesAfter (run ++ blanks) trees = nodesAfter run trees := by
  have sameText : ∀ run, textOf (run ++ blanks).reverse = textOf run.reverse := by
    intro run
    have blankReversed : ∀ segment ∈ blanks.reverse, segment.IsBlank :=
      fun segment member => blank segment (List.mem_reverse.mp member)
    unfold textOf
    rw [List.reverse_append, trimRunStart_append blankReversed]
  induction trees generalizing run with
  | nil => rw [nodesAfter, nodesAfter, sameText]
  | cons tree later inductionHypothesis =>
    cases tree with
    | element tag inner => rw [nodesAfter, nodesAfter, sameText]
    | standalone tag => rw [nodesAfter, nodesAfter, sameText]
    | plain raw => rw [nodesAfter, nodesAfter, ← List.cons_append, inductionHypothesis]
    | verbatim raw => rw [nodesAfter, nodesAfter, ← List.cons_append, inductionHypothesis]
    | comment raw => rw [nodesAfter, nodesAfter, inductionHypothesis]
    | instruction raw => rw [nodesAfter, nodesAfter, inductionHypothesis]

theorem nodesOf_misc (misc : tree.IsMisc) (trees : List Tree) :
    nodesOf (tree :: trees) = nodesOf trees := by
  unfold nodesOf
  cases tree with
  | element tag inner => exact misc.elim
  | standalone tag => exact misc.elim
  | verbatim content => exact misc.elim
  | plain raw =>
    have blank : ∀ segment ∈ [Segment.plain raw], segment.IsBlank := by
      intro segment member
      rw [List.mem_singleton.mp member]
      exact misc
    rw [nodesAfter]
    exact nodesAfter_append blank [] trees
  | comment content => rw [nodesAfter]
  | instruction content => rw [nodesAfter]

theorem nodesOf_nil : nodesOf [] = [] := by
  unfold nodesOf
  rw [nodesAfter]
  rfl

theorem nodesOf_element (tag : Tag) (inner trees : List Tree) :
    nodesOf (.element tag inner :: trees) =
      .element tag.name tag.attributeText (nodesOf inner) true :: nodesOf trees := by
  unfold nodesOf
  rw [nodesAfter]
  rfl

end ContentStore.Markup
