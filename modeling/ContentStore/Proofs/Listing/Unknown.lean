import ContentStore.Proofs.Listing.Skipping

/-!
Contract: elements in the documents of listings that nobody knows.

Owns:
- `ReadsAlike`, by which one content of a bucket is read as another, before its first
  object and between its objects;
- `labelsWithin` and `IsPlace`, the names of the fields at a place in a document;
- that an unknown element, put at any place in a bucket, an object or an owner, leaves
  the listing as it was, whatever is in the element.

Does not own: places inside the fields that hold a text.
-/

namespace ContentStore.Listing

open Markup (Node Segment Inserts InsertsIn LeadsTo WritesAttributes WellFormedContent WellFormed
  textOf)

variable {added node node' child child' : Node} {content content' rest rest' : List Node}
  {name attributes : List Char} {path : List (List Char)} {label : String}

/-! ## The content of a bucket -/

/-- One content of a bucket is read as another: as fields before the first object, and as
fields between the objects, which are kept for later. -/
structure ReadsAlike (content content' : List Node) : Prop where
  fields : ∀ closed draft,
    Keeps (readContent closed draft content) (readContent closed draft content')
  objects : ∀ name, labelOf name = "Contents" → ∀ objects kept,
    readObjects name content = .ok (objects, kept) →
      ∃ kept', readObjects name content' = .ok (objects, kept') ∧ ∀ draft,
        Keeps (kept.foldlM (addChild addToListing) draft)
          (kept'.foldlM (addChild addToListing) draft)

private theorem isContents_iff :
    Node.localPart name = "Contents".toList ↔ labelOf name = "Contents" := by
  unfold labelOf
  constructor
  · intro same
    rw [same, String.ofList_toList]
  · intro same
    rw [← same, String.toList_ofList]

namespace ReadsAlike

private theorem refl (content : List Node) : ReadsAlike content content where
  fields := fun _ _ => .refl _
  objects := fun _ _ _ kept read => ⟨kept, read, fun _ => .refl _⟩

/-- Contents that begin with elements that are read alike are read alike if what follows
is. -/
theorem element {closed : Bool} (isElement : child = .element name attributes content closed)
    (isElement' : child' = .element name attributes content' closed)
    (keepsField : ∀ draft, Keeps (addToListing draft (labelOf name) child)
      (addToListing draft (labelOf name) child'))
    (keepsObject : labelOf name = "Contents" → Keeps (readObject child) (readObject child'))
    (staysSound : child.isSound = true → child'.isSound = true) (later : ReadsAlike rest rest') :
    ReadsAlike (child :: rest) (child' :: rest') := by
  have objects : ∀ other, labelOf other = "Contents" → ∀ objects kept,
      readObjects other (child :: rest) = .ok (objects, kept) →
        ∃ kept', readObjects other (child' :: rest') = .ok (objects, kept') ∧ ∀ draft,
          Keeps (kept.foldlM (addChild addToListing) draft)
            (kept'.foldlM (addChild addToListing) draft) := by
    intro other isContents objects kept read
    subst isElement isElement'
    rw [readObjects] at read ⊢
    by_cases same : name = other
    · rw [if_pos same] at read ⊢
      obtain ⟨object, readFirst, readRest⟩ := exists_of_bind read
      obtain ⟨⟨others, keptLater⟩, readLater, isAll⟩ := exists_of_bind readRest
      obtain ⟨rfl, rfl⟩ := Prod.mk.inj (Except.ok.inj isAll)
      obtain ⟨kept', readLater', keeps⟩ :=
        later.objects other isContents others keptLater readLater
      refine ⟨kept', ?_, keeps⟩
      rw [keepsObject (same ▸ isContents) object readFirst, readLater']
      rfl
    · rw [if_neg same] at read ⊢
      split at read
      · rename_i sound
        obtain ⟨⟨others, keptLater⟩, readLater, isAll⟩ := exists_of_bind read
        obtain ⟨rfl, rfl⟩ := Prod.mk.inj (Except.ok.inj isAll)
        obtain ⟨kept', readLater', keeps⟩ :=
          later.objects other isContents others keptLater readLater
        refine ⟨.element name attributes content' closed :: kept', ?_, fun draft => ?_⟩
        · rw [if_pos (staysSound sound), readLater']
          rfl
        · rw [List.foldlM_cons, List.foldlM_cons]
          exact (keepsField draft).bind keeps
      · exact absurd read (by simp)
  refine ⟨fun isClosed draft => ?_, objects⟩
  subst isElement isElement'
  rw [readContent, readContent]
  by_cases isContents : Node.localPart name = "Contents".toList
  · -- From the first object on all objects are read at once, and then what was kept.
    simp only [if_pos isContents]
    intro value read
    obtain ⟨⟨found, kept⟩, readObjects, readKept⟩ := exists_of_bind read
    obtain ⟨kept', readObjects', keeps⟩ :=
      objects name (isContents_iff.mp isContents) found kept readObjects
    rw [readObjects']
    cases isClosed with
    | false =>
      obtain ⟨_, unclosed, _⟩ := exists_of_bind readKept
      exact absurd unclosed (by simp [throw, throwThe, MonadExceptOf.throw])
    | true => exact keeps _ value readKept
  · simp only [if_neg isContents]
    exact (keepsField draft).bind fun reached => later.fields isClosed reached

private theorem cons (node : Node) (later : ReadsAlike rest rest') :
    ReadsAlike (node :: rest) (node :: rest') := by
  cases node with
  | element name attributes content closed =>
    exact element rfl rfl (fun _ => .refl _) (fun _ => .refl _) id later
  | text held =>
    refine ⟨fun closed draft => ?_, fun name _ objects kept read => ?_⟩
    · rw [readContent, readContent]
      exact (Keeps.refl _).bind fun reached => later.fields closed reached
    · cases held <;> exact absurd read (by simp [readObjects])

private theorem append_left (later : ReadsAlike rest rest') (before : List Node) :
    ReadsAlike (before ++ rest) (before ++ rest') := by
  induction before with
  | nil => exact later
  | cons node before inductionHypothesis => exact cons node inductionHypothesis

end ReadsAlike

/-- Text of a bucket before its first object is read as in any record. -/
theorem readContent_textOf (run : List Segment) (closed : Bool) (draft : Listing.Draft)
    (rest : List Node) : readContent closed draft ((textOf run).toList ++ rest) = (do
      let reached ← (textOf run).toList.foldlM (addChild addToListing) draft
      readContent closed reached rest) := by
  cases isText : textOf run with
  | none => rfl
  | some node =>
    obtain ⟨held, rfl⟩ := Markup.exists_of_mem_textOf isText
    rw [Option.toList_some, List.singleton_append, readContent, List.foldlM_cons]
    cases held <;> rfl

private theorem readObjects_textOf {run : List Segment} {objects : List ListedObject}
    {kept : List Node}
    (read : readObjects name ((textOf run).toList ++ rest) = .ok (objects, kept)) :
    (∀ segment ∈ run, segment.IsBlank) ∧ readObjects name rest = .ok (objects, kept) := by
  rw [← Markup.textOf_eq_none_iff]
  cases isText : textOf run with
  | none =>
    rw [isText] at read
    exact ⟨rfl, read⟩
  | some node =>
    obtain ⟨held, rfl⟩ := Markup.exists_of_mem_textOf isText
    rw [isText] at read
    cases held <;> exact absurd read (by simp [readObjects])

section Bucket

variable {unknownName : List Char} (whole : IsWhole unknownName added)

include whole

/-- An unknown element in a bucket is passed over, or kept between the objects and then
passed over. -/
theorem ReadsAlike.of_inserts (inserts : Inserts added content content')
    (unknown : labelOf unknownName ∉ listingLabels) : ReadsAlike content content' := by
  have passed := whole.addChild_eq (addToListing_of_unknown unknown)
  have notContents : labelOf unknownName ≠ "Contents" := by
    intro isContents
    rw [isContents] at unknown
    exact absurd (by decide) unknown
  have sound := whole.isSound
  obtain ⟨attributes, inner, rfl, _⟩ := whole
  obtain @⟨before, after, run, left, right, cuts⟩ := inserts
  refine append_left ⟨fun closed draft value read => ?_,
    fun name isContents objects kept read => ?_⟩ before
  · rw [readContent_textOf] at read
    obtain ⟨reached, isText, readAfter⟩ := exists_of_bind read
    obtain ⟨rfl, legible⟩ := legible_of_foldlM_textOf isText
    obtain ⟨legibleLeft, legibleRight⟩ := cuts.legible legible
    rw [readContent_textOf, foldlM_textOf legibleLeft]
    show readContent closed reached
      (.element unknownName attributes inner true :: ((textOf right).toList ++ after)) = .ok value
    rw [readContent]
    simp only [if_neg (fun same => notContents (isContents_iff.mp same)), passed]
    show readContent closed reached _ = .ok value
    rw [readContent_textOf, foldlM_textOf legibleRight]
    exact readAfter
  · obtain ⟨blank, readAfter⟩ := readObjects_textOf read
    obtain ⟨blankLeft, blankRight⟩ := cuts.blank blank
    rw [Markup.textOf_eq_none_iff.mpr blankLeft, Markup.textOf_eq_none_iff.mpr blankRight]
    have otherName : unknownName ≠ name := by
      rintro rfl
      exact notContents isContents
    refine ⟨.element unknownName attributes inner true :: kept, ?_, fun draft => ?_⟩
    · show readObjects name (_ :: after) = _
      rw [readObjects, if_neg otherName, if_pos sound, readAfter]
      rfl
    · rw [List.foldlM_cons, passed]
      exact .refl _

private theorem ReadsAlike.of_insertsIn (inserts : InsertsIn added path child child')
    (unknown : IsUnknownAt (labelOf unknownName) path) (before after : List Node) :
    ReadsAlike (before ++ child :: after) (before ++ child' :: after) := by
  have staysSound := inserts.isSound whole.isSound
  obtain ⟨name, later, _, _, _, _, rfl, isElement, isElement'⟩ := inserts.exists_elements
  exact append_left (element isElement isElement' (keeps_addToListing inserts unknown)
    (keeps_readObject whole inserts unknown) staysSound (refl after)) before

end Bucket

/-! ## Documents -/

/-- The fields of the innermost of some open elements: the outermost is a bucket, and the
others are known by their names. -/
def labelsWithin : List (List Char) → Option (List String)
  | [] => none
  | [_] => some listingLabels
  | innermost :: _ :: _ => recordLabels (labelOf innermost)

/-- Below a bucket the innermost of the open elements decides. -/
theorem isUnknownAt_of_labelsWithin {opened : List (List Char)} {labels : List String}
    (isPath : opened.reverse = name :: path) (some_path : path ≠ [])
    (parent : labelsWithin opened = some labels) (unknown : label ∉ labels) :
    IsUnknownAt label path := by
  obtain ⟨earlier, innermost, rfl⟩ := (List.eq_nil_or_concat' path).resolve_left some_path
  have isOpened : opened = innermost :: (earlier.reverse ++ [name]) := by
    rw [← List.reverse_reverse opened, isPath]
    simp
  obtain ⟨next, outer, isOuter⟩ :=
    List.exists_cons_of_ne_nil (List.append_ne_nil_of_right_ne_nil earlier.reverse
      (List.cons_ne_nil name []))
  rw [isOpened, isOuter] at parent
  exact ⟨innermost, labels, List.getLast?_concat, parent, unknown⟩

/-- A listing is read from a node as before, if what is put into the node is unknown there. -/
theorem keeps_ofNode {unknownName : List Char} (whole : IsWhole unknownName added)
    {opened : List (List Char)} {labels : List String}
    (inserts : InsertsIn added opened.reverse node node')
    (parent : labelsWithin opened = some labels) (unknown : labelOf unknownName ∉ labels) :
    Keeps (ofNode node) (ofNode node') := by
  have keepsContent : ∀ {name attributes content content' closed}, ReadsAlike content content' →
      Keeps (ofNode (.element name attributes content closed))
        (ofNode (.element name attributes content' closed)) := by
    intro name attributes content content' closed alike
    cases sound : Markup.attributesAreSound attributes with
    | false =>
      simp only [ofNode, sound]
      exact .refl _
    | true =>
      simp only [ofNode, sound, if_true]
      exact (alike.fields closed _).bind fun _ => .refl _
  generalize isPath : opened.reverse = path at inserts
  cases inserts with
  | @here name _ _ _ _ inserts =>
    obtain rfl : opened = [name] := List.reverse_eq_cons_iff.mp isPath
    obtain rfl := Option.some.inj parent
    exact keepsContent (ReadsAlike.of_inserts whole inserts unknown)
  | @inside _ _ before after _ _ _ path deeper =>
    obtain ⟨_, _, _, _, _, _, rfl, _⟩ := deeper.exists_elements
    have unknownBelow := isUnknownAt_of_labelsWithin isPath (List.cons_ne_nil _ _) parent unknown
    exact keepsContent (ReadsAlike.of_insertsIn whole deeper unknownBelow before after)

/-- The text of a document without a byte order mark. -/
def unmarked : List Char → List Char
  | '\ufeff' :: rest => rest
  | symbols => symbols

private theorem ofDocument_eq_unmarked (document : String) :
    ofDocument document =
      (match Markup.nodes (unmarked document.toList) with
        | [] => .error .malformed
        | node :: _ => ofNode node : Except ListingFault Listing).mapError .listing :=
  rfl

/-- A document is cut at a place between tags, inside the elements `opened`, innermost first.
If it is cut in the midst of a text, it is not cut within a reference. -/
def IsPlace (front back : String) (opened : List (List Char)) : Prop :=
  ∃ text, LeadsTo [] (unmarked front.toList) opened text ∧
    Markup.cutsReference text back.toList = false

private theorem unmarked_append {front : List Char} (some_front : front ≠ []) (back : List Char) :
    unmarked (front ++ back) = unmarked front ++ back := by
  obtain ⟨first, more, rfl⟩ := List.exists_cons_of_ne_nil some_front
  by_cases isMark : first = '\ufeff'
  · rw [isMark]
    rfl
  · have stays : ∀ rest, unmarked (first :: rest) = first :: rest := by
      intro rest
      unfold unmarked
      split
      · rename_i begun
        exact absurd (List.cons.inj begun).1 isMark
      · rfl
    rw [List.cons_append, stays, stays, List.cons_append]

/-- An element that the element it is put into does not know leaves a listing as it was.
It may be put anywhere between the tags of a bucket, an object or an owner, and may hold
anything, elements by the names of fields and by its own name included. -/
theorem unknown_elements_are_invisible {front back element : String} {listing : Listing}
    {opened : List (List Char)} {labels : List String} {name : List Char}
    (place : IsPlace front back opened) (parent : labelsWithin opened = some labels)
    (wellFormed : WellFormed name element.toList) (unknown : labelOf name ∉ labels)
    (accepted : ofDocument (front ++ back) = .ok listing) :
    ofDocument (front ++ element ++ back) = .ok listing := by
  have some_open : opened ≠ [] := by
    rintro rfl
    exact absurd parent (by simp [labelsWithin])
  obtain ⟨text, leads, uncut⟩ := place
  have some_front : front.toList ≠ [] := by
    intro void
    rw [void] at leads
    exact some_open leads.eq_of_nil
  obtain ⟨attributes, content, before, after, node, node', sound, inserts, nodesBefore,
    nodesAfter⟩ := leads.inserts some_open uncut wellFormed
  have whole : IsWhole name (.element name attributes content true) :=
    ⟨attributes, content, rfl, sound⟩
  rw [ofDocument_eq_unmarked, String.toList_append, unmarked_append some_front, nodesBefore]
    at accepted
  rw [ofDocument_eq_unmarked, String.toList_append, String.toList_append, List.append_assoc,
    unmarked_append some_front, nodesAfter]
  cases before with
  | nil =>
    rw [List.nil_append] at accepted ⊢
    cases read : ofNode node with
    | error fault =>
      simp only [read] at accepted
      exact absurd accepted (by simp [Except.mapError])
    | ok told =>
      simp only [read] at accepted
      simp only [keeps_ofNode whole inserts parent unknown told read]
      exact accepted
  | cons first rest => exact accepted

/-- In an owner, an element with the name of a grant, an object in it, and its own name. -/
theorem grant_in_an_owner_is_invisible :
    ofDocument ("<List><Contents><Key>a</Key><Owner>" ++
      "<Grant kind='1>0'><Grant/>&amp;<Contents><Key>z</Key></Contents></Grant>" ++
        "<ID>b</ID></Owner></Contents></List>") =
      .ok ⟨none, none, none, none, false,
        [⟨"a", none, "", 0, some ⟨some "b", none⟩, none⟩]⟩ := by
  have noText : '<' ∉ ([] : List Char) := List.not_mem_nil
  have place : IsPlace "<List><Contents><Key>a</Key><Owner>" "<ID>b</ID></Owner></Contents></List>"
      ["Owner".toList, "Contents".toList, "List".toList] := by
    refine ⟨[], ?_, rfl⟩
    refine @LeadsTo.markup _ _ _ [] _ _ _ _ noText rfl rfl ?_
    refine @LeadsTo.markup _ _ _ [] _ _ _ _ noText rfl rfl ?_
    refine @LeadsTo.markup _ _ _ [] _ _ _ _ noText rfl rfl ?_
    refine @LeadsTo.markup _ _ _ ['a'] _ _ _ _ (by decide) rfl rfl ?_
    refine @LeadsTo.markup _ _ _ [] _ _ _ _ noText rfl rfl ?_
    exact .text noText
  have wellFormed : WellFormed "Grant".toList
      "<Grant kind='1>0'><Grant/>&amp;<Contents><Key>z</Key></Contents></Grant>".toList := by
    have attributes : WritesAttributes " kind='1>0'".toList :=
      @WritesAttributes.setting [' '] "kind".toList [] [] "1>0".toList [] '\'' (by decide)
        (by decide) (by decide) (by decide) (by decide) (by decide) (by decide) (.gap (by decide))
    have none : WritesAttributes [] := .gap (by decide)
    have key : WellFormedContent "<Key>z</Key>".toList :=
      @WellFormedContent.element "Key".toList [] "z".toList [] [] (by decide) none
        (@WellFormedContent.text "z".toList [] (by decide) (by decide) rfl (by simp [Markup.Opens])
          .nil) (by decide) .nil
    have record : WellFormedContent "<Contents><Key>z</Key></Contents>".toList :=
      @WellFormedContent.element "Contents".toList [] "<Key>z</Key>".toList [] [] (by decide)
        none key (by decide) .nil
    have text : WellFormedContent "&amp;<Contents><Key>z</Key></Contents>".toList :=
      @WellFormedContent.text "&amp;".toList "<Contents><Key>z</Key></Contents>".toList
        (by decide) (by decide) rfl (Markup.opens_bracket _) record
    have content : WellFormedContent "<Grant/>&amp;<Contents><Key>z</Key></Contents>".toList :=
      @WellFormedContent.standalone "Grant".toList []
        "&amp;<Contents><Key>z</Key></Contents>".toList (by decide) none text
    exact @WellFormed.element "Grant".toList " kind='1>0'".toList
      "<Grant/>&amp;<Contents><Key>z</Key></Contents>".toList [] (by decide) attributes content
      (by decide)
  exact unknown_elements_are_invisible place rfl wellFormed (by decide) (by decide +kernel)

end ContentStore.Listing
