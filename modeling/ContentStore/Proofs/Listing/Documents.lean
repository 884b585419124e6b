import ContentStore.Proofs.Listing.Objects

/-!
Contract: the documents of listings, as they are written and read.

Owns:
- `ListingField`, what is told of a bucket besides its objects;
- `WritesListing` and `WritesDocument`, by which the fields of a bucket are
  written in any order, between and around its objects, which keep theirs;
- `ofDocument_eq`, by which the listing is read again.

Does not own: elements that tell nothing.
-/

namespace ContentStore.Listing

open Markup (Node Tree WritesText nodesOf)
open Text.Decimal (words32)

/-! ## Fields of buckets -/

inductive ListingField where
  | name (value : String)
  | keyPrefix (value : String)
  | marker (value : String)
  | maxKeys (value : Nat)
  | isTruncated (value : Bool)
deriving DecidableEq

/-- The words for a truth value. -/
def spellings (value : Bool) : List String :=
  if value then trueSpellings else falseSpellings

namespace ListingField

def label : ListingField → String
  | name _ => "Name"
  | keyPrefix _ => "Prefix"
  | marker _ => "Marker"
  | maxKeys _ => "MaxKeys"
  | isTruncated _ => "IsTruncated"

def set (draft : Draft) : ListingField → Draft
  | name value => { draft with name := some value }
  | keyPrefix value => { draft with keyPrefix := some value }
  | marker value => { draft with marker := some value }
  | maxKeys value => { draft with maxKeys := some value }
  | isTruncated value => { draft with isTruncated := some value }

def IsUnset (draft : Draft) : ListingField → Prop
  | name _ => draft.name = none
  | keyPrefix _ => draft.keyPrefix = none
  | marker _ => draft.marker = none
  | maxKeys _ => draft.maxKeys = none
  | isTruncated _ => draft.isTruncated = none

/-- What an element holds that tells a field. -/
def Holds : ListingField → List Tree → Prop
  | name value => WritesText value.toList
  | keyPrefix value => WritesText value.toList
  | marker value => WritesText value.toList
  | maxKeys value => fun content => value < words32 ∧ WritesNumber value content
  | isTruncated value => fun content =>
    ∃ word ∈ spellings value, WritesText (String.toList word) content

def HoldsNodes : ListingField → List Node → Prop
  | name value => AreText value
  | keyPrefix value => AreText value
  | marker value => AreText value
  | maxKeys value => fun content => value < words32 ∧ AreNumber value content
  | isTruncated value => fun content => ∃ word ∈ spellings value, AreText word content

variable {node : Node} {field : ListingField}

private theorem apart (draft : Draft) (left right : ListingField)
    (different : left.label ≠ right.label) (unset : IsUnset draft left) :
    IsUnset (set draft right) left := by
  cases left <;> cases right <;> first | exact unset | exact absurd rfl different

private theorem commute (draft : Draft) (left right : ListingField)
    (different : left.label ≠ right.label) :
    set (set draft left) right = set (set draft right) left := by
  cases left <;> cases right <;> first | rfl | exact absurd rfl different

private theorem holdsNodes_nodesOf (field : ListingField) (content : List Tree)
    (holds : field.Holds content) : field.HoldsNodes (nodesOf content) := by
  cases field with
  | name value => exact areText_nodesOf value content holds
  | keyPrefix value => exact areText_nodesOf value content holds
  | marker value => exact areText_nodesOf value content holds
  | maxKeys value => exact ⟨holds.1, areNumber_nodesOf value content holds.2⟩
  | isTruncated value =>
    obtain ⟨word, isWord, writes⟩ := holds
    exact ⟨word, isWord, areText_nodesOf word content writes⟩

private theorem bare (field : ListingField) :
    Node.localPart field.label.toList = field.label.toList := by
  have all : ∀ label ∈ ["Name", "Prefix", "Marker", "MaxKeys", "IsTruncated"],
      Node.localPart label.toList = label.toList := by decide
  apply all
  cases field <;> simp [label]

private theorem not_contents (field : ListingField) : field.label.toList ≠ "Contents".toList := by
  have all : ∀ label ∈ ["Name", "Prefix", "Marker", "MaxKeys", "IsTruncated"],
      label.toList ≠ "Contents".toList := by decide
  apply all
  cases field <;> simp [label]

private theorem readTruth_eq {value : Bool} {name : String}
    (isElement : IsElement name (fun content => ∃ word ∈ spellings value, AreText word content)
      node) : readTruth node = .ok value := by
  obtain ⟨attributes, content, same, sound, word, isWord, isText⟩ := isElement
  have read := readText_eq ⟨attributes, content, same, sound, isText⟩
  have allTrue : ∀ word ∈ spellings true, trueSpellings.contains word = true := by decide
  have allFalse : ∀ word ∈ spellings false, trueSpellings.contains word = false ∧
      falseSpellings.contains word = true := by decide
  cases value with
  | true =>
    simp only [readTruth, read, bind, Except.bind, allTrue word isWord, if_true]
    rfl
  | false =>
    simp only [readTruth, read, bind, Except.bind, allFalse word isWord, if_true]
    rfl

private theorem addChild_eq (field : ListingField)
    (isElement : IsElement field.label field.HoldsNodes node) (draft : Draft)
    (unset : IsUnset draft field) :
    addChild addToListing draft node = .ok (set draft field) := by
  rw [addChild_eq_add isElement field.bare]
  cases field with
  | name value =>
    have unsetName : draft.name = none := unset
    simp only [label, addToListing, once, readText_eq isElement, unsetName]
    rfl
  | keyPrefix value =>
    have unsetPrefix : draft.keyPrefix = none := unset
    simp only [label, addToListing, once, readText_eq isElement, unsetPrefix]
    rfl
  | marker value =>
    have unsetMarker : draft.marker = none := unset
    simp only [label, addToListing, once, readText_eq isElement, unsetMarker]
    rfl
  | maxKeys value =>
    have unsetKeys : draft.maxKeys = none := unset
    obtain ⟨attributes, content, same, sound, small, isNumber⟩ := isElement
    have read := readNumber_eq ⟨attributes, content, same, sound, isNumber⟩ small
    simp only [label, addToListing, once, read, unsetKeys]
    rfl
  | isTruncated value =>
    have unsetTruth : draft.isTruncated = none := unset
    simp only [label, addToListing, once, readTruth_eq isElement, unsetTruth]
    rfl

/-- A field holds no more than a text, so that nothing in it can be wrong. -/
theorem isSound_of_isElement (isElement : IsElement field.label field.HoldsNodes node) :
    node.isSound = true := by
  obtain ⟨attributes, content, rfl, _, holds⟩ := isElement
  have areSound : ∀ text, AreText text content → Node.allSound content = true := by
    intro text isText
    rw [isText]
    split <;> rfl
  rw [Node.isSound, Bool.true_and]
  cases field with
  | name value => exact areSound value holds
  | keyPrefix value => exact areSound value holds
  | marker value => exact areSound value holds
  | maxKeys value =>
    obtain ⟨_, digits, _, isText⟩ := holds
    exact areSound digits isText
  | isTruncated value =>
    obtain ⟨word, _, isText⟩ := holds
    exact areSound word isText

/-- The fields that are told of a bucket; that there is no more of it need not
be told. -/
def all (listing : Listing) (truncation : Option Bool) : List ListingField :=
  listing.name.toList.map name ++ listing.keyPrefix.toList.map keyPrefix ++
    listing.marker.toList.map marker ++ listing.maxKeys.toList.map maxKeys ++
      truncation.toList.map isTruncated

private theorem foldl_all (listing : Listing) (truncation : Option Bool) :
    (all listing truncation).foldl set ⟨none, none, none, none, none, none⟩ =
      ⟨listing.name, listing.keyPrefix, listing.marker, listing.maxKeys, truncation, none⟩ := by
  obtain ⟨_ | bucket, _ | front, _ | mark, _ | keys, _, _⟩ := listing <;>
    cases truncation <;> rfl

private theorem nodup_all (listing : Listing) (truncation : Option Bool) :
    ((all listing truncation).map label).Nodup := by
  obtain ⟨_ | bucket, _ | front, _ | mark, _ | keys, _, _⟩ := listing <;>
    cases truncation <;> simp [all, label]

/-- The objects of a listing are none of its fields. -/
theorem foldl_set_contents (fields : List ListingField) (draft : Draft)
    (objects : Option (List ListedObject)) :
    fields.foldl set { draft with contents := objects } =
      { fields.foldl set draft with contents := objects } := by
  induction fields generalizing draft with
  | nil => rfl
  | cons field rest inductionHypothesis =>
    rw [List.foldl_cons, List.foldl_cons, ← inductionHypothesis]
    cases field <;> rfl

end ListingField

/-! ## Fields and objects one after the other -/

/-- What a bucket holds in a document: its fields, and the records of objects. -/
abbrev ListingItem := ListingField ⊕ ListedObject

def fieldsOf (items : List ListingItem) : List ListingField :=
  items.filterMap Sum.getLeft?

def objectsOf (items : List ListingItem) : List ListedObject :=
  items.filterMap Sum.getRight?

def WritesItem : ListingItem → Tree → Prop
  | .inl field => WritesElement field.label field.Holds
  | .inr object => WritesElement "Contents" (WritesObject object)

def IsItem : ListingItem → Node → Prop
  | .inl field => IsElement field.label field.HoldsNodes
  | .inr object => IsElement "Contents" (AreObject object)

variable {items : List ListingItem} {nodes : List Node} {draft : Draft}

/-- The records of objects are read past the fields between them, which are
kept. -/
theorem readObjects_eq (areItems : List.Forall₂ IsItem items nodes) :
    ∃ kept, readObjects "Contents".toList nodes = .ok (objectsOf items, kept) ∧
      List.Forall₂ (fun field node => IsElement (ListingField.label field) field.HoldsNodes node)
        (fieldsOf items) kept := by
  induction areItems with
  | nil => exact ⟨[], rfl, .nil⟩
  | @cons item node items nodes isItem _ inductionHypothesis =>
    obtain ⟨kept, read, areFields⟩ := inductionHypothesis
    cases item with
    | inl field =>
      refine ⟨node :: kept, ?_, .cons isItem areFields⟩
      have sound := ListingField.isSound_of_isElement isItem
      obtain ⟨attributes, content, rfl, _, _⟩ := isItem
      rw [readObjects, if_neg field.not_contents, if_pos sound, read]
      rfl
    | inr object =>
      refine ⟨kept, ?_, areFields⟩
      have readFirst := readObject_eq isItem
      obtain ⟨attributes, content, rfl, _, _⟩ := isItem
      rw [readObjects, if_pos rfl, readFirst, read]
      rfl

/-- The content of a bucket is read into its fields and its objects, however
they are mixed. -/
theorem readContent_eq (areItems : List.Forall₂ IsItem items nodes)
    (once : ((fieldsOf items).map ListingField.label).Nodup)
    (unset : ∀ field ∈ fieldsOf items, ListingField.IsUnset draft field)
    (empty : draft.contents = none) :
    ∃ contents, contents.getD [] = objectsOf items ∧
      readContent true draft nodes =
        .ok { (fieldsOf items).foldl ListingField.set draft with contents := contents } := by
  induction areItems generalizing draft with
  | nil =>
    refine ⟨none, rfl, ?_⟩
    rw [← empty]
    rfl
  | @cons item node items nodes isItem areItems inductionHypothesis =>
    cases item with
    | inl field =>
      have unsetField : ListingField.IsUnset draft field := unset field List.mem_cons_self
      have unsetLater := isUnset_set_of_nodup ListingField.apart once unset
      have emptyLater : (ListingField.set draft field).contents = none := by
        cases field <;> exact empty
      obtain ⟨contents, told, read⟩ :=
        inductionHypothesis (List.nodup_cons.mp once).2 unsetLater emptyLater
      refine ⟨contents, told, ?_⟩
      have added := field.addChild_eq isItem draft unsetField
      obtain ⟨attributes, content, rfl, _, _⟩ := isItem
      rw [readContent]
      simp only [field.bare, if_neg field.not_contents, added]
      exact read
    | inr object =>
      -- From the first object on, all objects are read at once, and then the
      -- fields that were between them.
      obtain ⟨kept, read, areFields⟩ := readObjects_eq (.cons isItem areItems)
      refine ⟨some (object :: objectsOf items), rfl, ?_⟩
      have unsetStill : ∀ field ∈ fieldsOf items, ListingField.IsUnset
          { draft with contents := some (object :: objectsOf items) } field := by
        intro field member
        cases field <;> exact unset _ member
      have rest := foldlM_fields ListingField.apart
        (areFields.imp fun field node isField => field.addChild_eq isField) once unsetStill
      obtain ⟨attributes, content, rfl, _, _⟩ := isItem
      have isContents : Node.localPart "Contents".toList = "Contents".toList := by decide
      rw [readContent]
      simp only [isContents, if_true, read]
      rw [← ListingField.foldl_set_contents]
      exact rest

/-! ## Documents -/

/-- A listing with its objects in their order, and the fields of the bucket
anywhere. -/
def WritesListing (listing : Listing) (content : List Tree) : Prop :=
  ∃ truncation items, Option.getD truncation false = listing.isTruncated ∧
    objectsOf items = listing.contents ∧
      List.Perm (fieldsOf items) (ListingField.all listing truncation) ∧
        WritesEach WritesItem items content

/-- A document with a listing in its first element. -/
def WritesDocument (listing : Listing) (document : String) : Prop :=
  ∃ before root after, document.toList = Tree.writeAll (before ++ root :: after) ∧
    Tree.AllSound (before ++ root :: after) ∧ (∀ tree ∈ before, tree.IsMisc) ∧
      WritesElement "ListBucketResult" (WritesListing listing) root

variable {listing : Listing} {document : String}

private theorem ofNode_eq {content : List Tree} {attributes : List Char}
    (writes : WritesListing listing content)
    (sound : Markup.attributesAreSound attributes = true) (name : List Char) :
    ofNode (.element name attributes (nodesOf content) true) = .ok listing := by
  obtain ⟨truncation, items, isTruncated, objects, perm, written⟩ := writes
  have areItems : List.Forall₂ IsItem items (nodesOf content) := by
    apply written.forall₂
    intro item tree writesItem
    cases item with
    | inl field => exact WritesElement.exists_node writesItem field.holdsNodes_nodesOf
    | inr object => exact WritesElement.exists_node writesItem (areObject_nodesOf object)
  have once : ((fieldsOf items).map ListingField.label).Nodup :=
    (perm.map _).nodup_iff.mpr (ListingField.nodup_all listing truncation)
  have unset : ∀ field ∈ fieldsOf items,
      ListingField.IsUnset ⟨none, none, none, none, none, none⟩ field := by
    intro field member
    cases field <;> rfl
  obtain ⟨contents, told, read⟩ := readContent_eq areItems once unset rfl
  rw [foldl_fields_perm ListingField.commute perm once, ListingField.foldl_all] at read
  simp only [ofNode, sound, if_true, read]
  show Except.ok (Listing.mk listing.name listing.keyPrefix listing.marker listing.maxKeys
    (truncation.getD false) (contents.getD [])) = _
  rw [isTruncated, told, objects]

private theorem nodesOf_append_misc {before : List Tree} (misc : ∀ tree ∈ before, tree.IsMisc)
    (trees : List Tree) : nodesOf (before ++ trees) = nodesOf trees := by
  induction before with
  | nil => rfl
  | cons tree rest inductionHypothesis =>
    rw [List.cons_append, Markup.nodesOf_misc (misc tree List.mem_cons_self)]
    exact inductionHypothesis fun other member => misc other (List.mem_cons_of_mem _ member)

private theorem head?_writeAll {before after : List Tree} {root : Tree}
    (sound : Tree.AllSound (before ++ root :: after)) (misc : ∀ tree ∈ before, tree.IsMisc)
    (notPlain : root.isPlain = false) :
    ∀ symbol ∈ (Tree.writeAll (before ++ root :: after)).head?,
      symbol = '<' ∨ Markup.isBlank symbol = true := by
  intro symbol begins
  cases before with
  | nil =>
    rw [List.nil_append, Tree.writeAll] at begins
    exact Or.inl (Markup.opens_write notPlain _ symbol begins)
  | cons first rest =>
    rw [List.cons_append, Tree.writeAll] at begins
    cases isPlain : first.isPlain with
    | false => exact Or.inl (Markup.opens_write isPlain _ symbol begins)
    | true =>
      have isMisc := misc first List.mem_cons_self
      cases first with
      | plain raw =>
        rw [List.cons_append, Tree.AllSound, Tree.Sound] at sound
        obtain ⟨initial, more, rfl⟩ := List.exists_cons_of_ne_nil sound.1.1
        rw [Tree.write] at begins
        rw [← Option.some.inj begins]
        exact Or.inr (isMisc initial List.mem_cons_self)
      | _ => exact absurd isPlain (by simp [Tree.isPlain])

/-- A listing is read from any document that it is written in. -/
theorem ofDocument_eq (writes : WritesDocument listing document) :
    ofDocument document = .ok listing := by
  obtain ⟨before, root, after, written, sound, misc, tag, content, rfl, soundTag, named, lists⟩ :=
    writes
  have begins := head?_writeAll sound misc (by simp [Tree.isPlain])
  have read := Markup.nodes_writeAll sound
  rw [nodesOf_append_misc misc, Markup.nodesOf_element, named] at read
  rw [← written] at begins read
  have isListing := ofNode_eq lists soundTag.attributesAreSound "ListBucketResult".toList
  have unmarked : ∀ rest, document.toList ≠ '\ufeff' :: rest := by
    intro rest isMarked
    rw [isMarked] at begins
    exact absurd (begins '\ufeff' rfl) (by decide)
  unfold ofDocument
  split
  · rename_i rest isMarked
    exact absurd isMarked (unmarked rest)
  · simp only [read, isListing]
    rfl

end ContentStore.Listing
