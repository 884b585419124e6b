import ContentStore.Proofs.Listing.Rendering

/-!
Contract: documents of listings, with all that their writer is free to choose.

Owns:
- `Row`, elements in an order of their own, with white space before each and at the end;
- `Record` and `Layout`, an object and a bucket with a way to write them: the order of
  fields, the quotes around entity tags, the places of records among the other elements;
- `Layout.document`, the document so written, with every character that has a name
  written by it;
- `Legible`, by which texts have no white space at their ends, and entity tags no quotes;
- `legible_listing_is_read_back`, by which the document is read as the listing.

Does not own: comments, references by number, and attributes of other elements than
that of the bucket.
-/

namespace ContentStore.Listing

open Markup (Attribute IsGap IsName Spells Tag Tree Trimmed WritesText escape spells_escape)

/-! ## Rows of elements -/

/-- Characters between two tags, if there are any. -/
def between (raw : List Char) : List Tree :=
  if raw = [] then [] else [.plain raw]

/-- Items in their order, with white space. -/
structure Row (Item : Type) where
  /-- The items, each behind some white space. -/
  placed : List (List Char × Item)
  /-- The white space behind the last one. -/
  ending : List Char

namespace Row

variable {Item : Type}

def items (row : Row Item) : List Item :=
  row.placed.map Prod.snd

/-- Items without white space. -/
def close (items : List Item) : Row Item :=
  ⟨items.map fun item => ([], item), []⟩

def trees (tree : Item → Tree) (row : Row Item) : List Tree :=
  row.placed.flatMap (fun place => between place.1 ++ [tree place.2]) ++ between row.ending

private theorem trees_nil (tree : Item → Tree) (ending : List Char) :
    trees tree ⟨[], ending⟩ = between ending ++ [] :=
  (List.append_nil _).symm

private theorem trees_cons (tree : Item → Tree) (place : List Char × Item)
    (rest : List (List Char × Item)) (ending : List Char) :
    trees tree ⟨place :: rest, ending⟩ =
      between place.1 ++ tree place.2 :: trees tree ⟨rest, ending⟩ := by
  unfold trees
  rw [List.flatMap_cons, List.append_assoc, List.append_assoc]
  rfl

/-- Whether there is nothing but white space between the items. -/
structure IsSpaced (row : Row Item) : Prop where
  gaps : ∀ place ∈ row.placed, IsGap place.1
  ending : IsGap row.ending

private theorem items_close (items : List Item) : (close items).items = items := by
  unfold close Row.items
  rw [List.map_map]
  exact List.map_id _

private theorem isSpaced_close (items : List Item) : (close items).IsSpaced where
  gaps := by
    intro place member
    obtain ⟨item, _, rfl⟩ := List.mem_map.mp member
    exact List.forall_mem_nil _
  ending := List.forall_mem_nil _

end Row

section Rows

variable {Item : Type} {row : Row Item} {tree : Item → Tree} {gap raw text : List Char}
  {trees : List Tree} {name : String}

private theorem allSound_between (isGap : IsGap gap) (sound : Tree.AllSound trees)
    (separate : ∀ next ∈ trees.head?, next.isPlain = false) :
    Tree.AllSound (between gap ++ trees) := by
  unfold between
  split
  · exact sound
  · rename_i some_gap
    have free : ∀ symbol ∈ gap, symbol ≠ '<' ∧ symbol ≠ '&' := by
      intro symbol member
      have blank := isGap symbol member
      constructor <;> rintro rfl <;> exact absurd blank (by decide)
    have spells := Markup.spells_self free
    rw [List.singleton_append, Tree.AllSound]
    exact ⟨spells.sound_plain some_gap, sound, fun _ => separate⟩

/-- What holds at the end of a row, and behind each item if it holds behind the next,
holds of the whole row. -/
theorem Row.trees_induction {motive : List Item → List Tree → Prop} (spaced : row.IsSpaced)
    (ends : ∀ gap, IsGap gap → motive [] (between gap ++ []))
    (step : ∀ gap item items trees, IsGap gap → item ∈ row.items → motive items trees →
      motive (item :: items) (between gap ++ tree item :: trees)) :
    motive row.items (row.trees tree) := by
  obtain ⟨placed, ending⟩ := row
  obtain ⟨gaps, isEnding⟩ := spaced
  induction placed with
  | nil =>
    rw [Row.trees_nil]
    exact ends ending isEnding
  | cons place rest inductionHypothesis =>
    have later := inductionHypothesis
      (fun gap item items trees isGap member =>
        step gap item items trees isGap (List.mem_cons_of_mem _ member))
      (fun other member => gaps other (List.mem_cons_of_mem _ member)) isEnding
    rw [Row.trees_cons]
    exact step place.1 place.2 _ _ (gaps place List.mem_cons_self) List.mem_cons_self later

/-- A row can be read again as it was written, if all its elements can. -/
theorem allSound_trees (spaced : row.IsSpaced)
    (each : ∀ item ∈ row.items, (tree item).Sound ∧ (tree item).isPlain = false) :
    Tree.AllSound (row.trees tree) := by
  apply Row.trees_induction (motive := fun _ trees => Tree.AllSound trees) spaced
  · intro gap isGap
    exact allSound_between isGap Tree.allSound_nil (by simp)
  · intro gap item _ trees isGap member later
    obtain ⟨sound, element⟩ := each item member
    apply allSound_between isGap (Tree.allSound_cons_of_not_text sound element later)
    intro next first
    rw [← Option.some.inj first]
    exact element

private theorem writesEach_between {Writes : Item → Tree → Prop} {items : List Item}
    (isGap : IsGap gap)
    (later : WritesEach Writes items trees) : WritesEach Writes items (between gap ++ trees) := by
  unfold between
  split
  · exact later
  · exact .misc isGap later

/-- The elements of a row are its items, one after the other. -/
theorem writesEach_trees {Writes : Item → Tree → Prop} (spaced : row.IsSpaced)
    (each : ∀ item ∈ row.items, Writes item (tree item)) :
    WritesEach Writes row.items (row.trees tree) := by
  apply Row.trees_induction (motive := WritesEach Writes) spaced
  · intro gap isGap
    exact writesEach_between isGap .done
  · intro gap item items trees isGap member later
    exact writesEach_between isGap (.item (each item member) later)

private theorem WritesEach.map {Other : Type} {Writes : Other → Tree → Prop} {items : List Item}
    {meant : Item → Other} (written : WritesEach (fun item => Writes (meant item)) items trees) :
    WritesEach Writes (items.map meant) trees := by
  induction written with
  | done => exact .done
  | misc isMisc _ inductionHypothesis => exact .misc isMisc inductionHypothesis
  | item writtenItem _ inductionHypothesis => exact .item writtenItem inductionHypothesis

/-! ### Elements that hold a text -/

/-- An element that holds characters. -/
def told (name : String) (raw : List Char) : Tree :=
  .element (.named name) (between raw)

private theorem writesText_between (trimmed : Trimmed text) (spells : Spells raw text) :
    WritesText text (between raw) := by
  unfold between
  split
  · rename_i void
    subst void
    rw [spells.eq_nil]
    exact .empty
  · rename_i some_raw
    refine .spelled ?_ trimmed spells
    rintro rfl
    cases spells
    exact some_raw rfl

private theorem sound_told (isName : IsName name.toList) (spells : Spells raw text) :
    (told name raw).Sound := by
  apply Tree.sound_element isName
  unfold between
  split
  · exact Tree.allSound_nil
  · rename_i some_raw
    exact Tree.allSound_singleton (spells.sound_plain some_raw)

private theorem writes_told {Holds : List Tree → Prop} (isName : IsName name.toList)
    (spells : Spells raw text) (holds : Holds (between raw)) :
    (told name raw).Sound ∧ WritesElement name Holds (told name raw) :=
  ⟨sound_told isName spells, .named name, between raw, rfl, Tag.sound_named isName, rfl, holds⟩

/-- An element that holds an escaped text. -/
theorem writes_escaped (isName : IsName name.toList) (trimmed : Trimmed text) :
    (told name (escape text)).Sound ∧
      WritesElement name (WritesText text) (told name (escape text)) :=
  writes_told isName (spells_escape text) (writesText_between trimmed (spells_escape text))

/-- An element that holds a number. -/
theorem writes_decimal (isName : IsName name.toList) (number : Nat) :
    (told name (Text.Decimal.write number)).Sound ∧
      WritesElement name (WritesNumber number) (told name (Text.Decimal.write number)) := by
  have plain := isPlain_decimal number
  have spells := Markup.spells_self plain.free
  exact writes_told isName spells ⟨_, Text.Decimal.spells_write number,
    writesText_between plain.trimmed spells⟩

private theorem isPlain_of_writesElement {Holds : List Tree → Prop} {element : Tree}
    (written : WritesElement name Holds element) : element.isPlain = false := by
  obtain ⟨tag, content, rfl, _⟩ := written
  rfl

end Rows

/-! ## Ways to write -/

private theorem BareTag.trimmed {tag : String} (bare : BareTag tag) : Trimmed tag.toList where
  head symbol first := Markup.not_isBlank_of_text (bare.head symbol first).1
  last symbol last := Markup.not_isBlank_of_text (bare.last symbol last).1

/-- Quotes keep white space away from the ends. -/
theorem trimmed_quoteTag (tag : String) : Trimmed (quoteTag tag).toList := by
  have visible : Markup.isBlank '"' = false := by decide
  unfold quoteTag
  rw [String.toList_ofList]
  constructor
  · intro symbol first
    rw [← Option.some.inj first]
    exact visible
  · intro symbol last
    rw [← List.cons_append, List.getLast?_append] at last
    rw [← Option.some.inj last]
    exact visible

/-- How the quotes around an entity tag are written, if they are. -/
inductive Quotes where
  | none
  | plain
  | named
deriving DecidableEq

namespace Quotes

/-- An entity tag with the quotes that are meant around it. -/
def around (quotes : Quotes) (tag : String) : String :=
  match quotes with
  | none => tag
  | _ => quoteTag tag

def spell (quotes : Quotes) (tag : String) : List Char :=
  match quotes with
  | none => escape tag.toList
  | plain => '"' :: (escape tag.toList ++ ['"'])
  | named => "&quot;".toList ++ (escape tag.toList ++ "&quot;".toList)

private theorem spells (quotes : Quotes) (tag : String) :
    Spells (quotes.spell tag) (quotes.around tag).toList := by
  have inner := spells_escape tag.toList
  have quoted : (quoteTag tag).toList = ['"'] ++ (tag.toList ++ ['"']) := String.toList_ofList
  cases quotes with
  | none => exact inner
  | plain =>
    have mark : Spells ['"'] ['"'] := Markup.spells_self (by decide)
    show Spells _ (quoteTag tag).toList
    rw [quoted]
    exact mark.append (inner.append mark)
  | named =>
    have mark : Spells "&quot;".toList ['"'] := Markup.spells_escaped '"'
    show Spells _ (quoteTag tag).toList
    rw [quoted]
    exact mark.append (inner.append mark)

private theorem trimmed (quotes : Quotes) {tag : String} (bare : BareTag tag) :
    Trimmed (quotes.around tag).toList := by
  cases quotes with
  | none => exact bare.trimmed
  | plain => exact trimmed_quoteTag tag
  | named => exact trimmed_quoteTag tag

end Quotes

namespace OwnerField

def tree (field : OwnerField) : Tree :=
  told field.label (escape field.value.toList)

/-- Whether a text can stand between two tags: without white space at its ends. -/
def Legible (field : OwnerField) : Prop :=
  Trimmed field.value.toList

instance (field : OwnerField) : Decidable field.Legible :=
  inferInstanceAs (Decidable (Trimmed _))

private theorem writes_tree {field : OwnerField} (legible : field.Legible) :
    field.tree.Sound ∧ field.Writes field.tree := by
  have isName : IsName field.label.toList := by
    cases field <;> simp only [label] <;> decide
  exact writes_escaped isName legible

end OwnerField

namespace ObjectField

/-- Whether the texts in a field have no white space at their ends, and entity tags no
quotes. -/
def Legible : ObjectField → Prop
  | key value => Trimmed value.toList
  | lastModified value => Trimmed value.toList
  | etag value => BareTag value
  | size _ => True
  | owner value => ∀ field ∈ OwnerField.all value, field.Legible
  | storageClass value => Trimmed value.toList

instance : (field : ObjectField) → Decidable field.Legible
  | key _ => inferInstanceAs (Decidable (Trimmed _))
  | lastModified _ => inferInstanceAs (Decidable (Trimmed _))
  | etag _ => inferInstanceAs (Decidable (BareTag _))
  | size _ => .isTrue trivial
  | owner _ => inferInstanceAs (Decidable (∀ field ∈ OwnerField.all _, field.Legible))
  | storageClass _ => inferInstanceAs (Decidable (Trimmed _))

end ObjectField

/-- An object with a way to write it. -/
structure Record where
  object : ListedObject
  quotes : Quotes
  fields : Row ObjectField
  /-- The fields of the owner, if there is one. -/
  ownerFields : Row OwnerField

namespace Record

/-- The element of a field. -/
def fieldTree (record : Record) : ObjectField → Tree
  | .key value => told "Key" (escape value.toList)
  | .lastModified value => told "LastModified" (escape value.toList)
  | .etag value => told "ETag" (record.quotes.spell value)
  | .size value => told "Size" (Text.Decimal.write value.toNat)
  | .owner _ => .element (.named "Owner") (record.ownerFields.trees OwnerField.tree)
  | .storageClass value => told "StorageClass" (escape value.toList)

def tree (record : Record) : Tree :=
  .element (.named "Contents") (record.fields.trees record.fieldTree)

/-- Whether a record tells all of its object, in any order. -/
structure Complete (record : Record) : Prop where
  spaced : record.fields.IsSpaced
  fields : record.fields.items.Perm (ObjectField.all record.object record.object.etag)
  ownerSpaced : record.ownerFields.IsSpaced
  owner : ∀ owner ∈ record.object.owner, record.ownerFields.items.Perm (OwnerField.all owner)

/-- A field with its entity tag as it is meant to be read. -/
def meant (record : Record) : ObjectField → ObjectField
  | .etag value => .etag (record.quotes.around value)
  | field => field

variable {record : Record} {field : ObjectField}

/-- A field of an owner is one of those that its row tells. -/
theorem Complete.writes_owner (complete : record.Complete) {owner : ObjectOwner}
    (isOwner : owner ∈ record.object.owner)
    (legible : ∀ field ∈ OwnerField.all owner, field.Legible) :
    Tree.AllSound (record.ownerFields.trees OwnerField.tree) ∧
      WritesOwner owner (record.ownerFields.trees OwnerField.tree) := by
  have perm := complete.owner owner isOwner
  have each : ∀ field ∈ record.ownerFields.items,
      field.tree.Sound ∧ field.Writes field.tree := by
    intro field member
    exact OwnerField.writes_tree (legible field (perm.mem_iff.mp member))
  constructor
  · apply allSound_trees complete.ownerSpaced
    intro field member
    exact ⟨(each field member).1, isPlain_of_writesElement (each field member).2⟩
  · refine ⟨_, perm, writesEach_trees complete.ownerSpaced ?_⟩
    exact fun field member => (each field member).2

/-- Every field of a complete record is written as it is meant. -/
theorem Complete.writes_field (complete : record.Complete)
    (member : field ∈ ObjectField.all record.object record.object.etag)
    (legible : field.Legible) :
    (record.fieldTree field).Sound ∧ (record.meant field).Writes (record.fieldTree field) := by
  cases field with
  | key value => exact writes_escaped (by decide) legible
  | lastModified value => exact writes_escaped (by decide) legible
  | storageClass value => exact writes_escaped (by decide) legible
  | size value => exact writes_decimal (by decide) value.toNat
  | etag value =>
    have spells := record.quotes.spells value
    exact writes_told (by decide) spells
      (writesText_between (record.quotes.trimmed legible) spells)
  | owner value =>
    have isOwner : value ∈ record.object.owner := by
      simpa [ObjectField.all] using member
    obtain ⟨sound, writes⟩ := complete.writes_owner isOwner legible
    exact ⟨Tree.sound_element (by decide) sound, .named "Owner", _, rfl,
      Tag.sound_named (by decide), rfl, writes⟩

private theorem map_meant_all (record : Record) (object : ListedObject) :
    (ObjectField.all object object.etag).map record.meant =
      ObjectField.all object (record.quotes.around object.etag) := by
  obtain ⟨objectKey, _ | time, objectTag, objectSize, _ | holder, _ | storage⟩ := object <;> rfl

/-- A complete record is an element of its object. -/
theorem Complete.writes_tree (complete : record.Complete)
    (legible : ∀ field ∈ ObjectField.all record.object record.object.etag, field.Legible) :
    record.tree.Sound ∧ WritesElement "Contents" (WritesObject record.object) record.tree := by
  have each : ∀ field ∈ record.fields.items, (record.fieldTree field).Sound ∧
      (record.meant field).Writes (record.fieldTree field) := by
    intro field member
    have told := complete.fields.mem_iff.mp member
    exact complete.writes_field told (legible field told)
  have bare : BareTag record.object.etag := legible (.etag _) (by simp [ObjectField.all])
  have sound : Tree.AllSound (record.fields.trees record.fieldTree) := by
    apply allSound_trees complete.spaced
    intro field member
    exact ⟨(each field member).1, isPlain_of_writesElement (each field member).2⟩
  refine ⟨Tree.sound_element (by decide) sound, .named "Contents", _, rfl,
    Tag.sound_named (by decide), rfl, bare, record.quotes.around record.object.etag,
    record.fields.items.map record.meant, ?_, ?_, ?_⟩
  · cases record.quotes <;> simp [Quotes.around]
  · rw [← map_meant_all]
    exact complete.fields.map record.meant
  · apply WritesEach.map
    apply writesEach_trees complete.spaced
    exact fun field member => (each field member).2

/-- An object told field after field. -/
def straight (object : ListedObject) : Record where
  object := object
  quotes := .named
  fields := .close (ObjectField.all object object.etag)
  ownerFields := .close ((object.owner.map OwnerField.all).getD [])

private theorem complete_straight (object : ListedObject) : (straight object).Complete where
  spaced := Row.isSpaced_close _
  fields := .of_eq (Row.items_close _)
  ownerSpaced := Row.isSpaced_close _
  owner := by
    intro owner isOwner
    have holds : object.owner = some owner := isOwner
    unfold straight
    rw [Row.items_close, holds]
    exact .rfl

end Record

namespace ListingField

def tree : ListingField → Tree
  | name value => told "Name" (escape value.toList)
  | keyPrefix value => told "Prefix" (escape value.toList)
  | marker value => told "Marker" (escape value.toList)
  | maxKeys value => told "MaxKeys" (Text.Decimal.write value)
  | isTruncated value => told "IsTruncated" (if value then "true" else "false").toList

/-- Whether a text has no white space at its ends, and a number fits into its word. -/
def Legible : ListingField → Prop
  | name value => Trimmed value.toList
  | keyPrefix value => Trimmed value.toList
  | marker value => Trimmed value.toList
  | maxKeys value => value < Text.Decimal.words32
  | isTruncated _ => True

instance : (field : ListingField) → Decidable field.Legible
  | name _ => inferInstanceAs (Decidable (Trimmed _))
  | keyPrefix _ => inferInstanceAs (Decidable (Trimmed _))
  | marker _ => inferInstanceAs (Decidable (Trimmed _))
  | maxKeys _ => inferInstanceAs (Decidable (_ < _))
  | isTruncated _ => .isTrue trivial

private theorem writes_tree {field : ListingField} (legible : field.Legible) :
    field.tree.Sound ∧ WritesElement field.label field.Holds field.tree := by
  cases field with
  | name value => exact writes_escaped (by decide) legible
  | keyPrefix value => exact writes_escaped (by decide) legible
  | marker value => exact writes_escaped (by decide) legible
  | maxKeys value =>
    obtain ⟨sound, tag, content, same, soundTag, named, isNumber⟩ :=
      writes_decimal (show IsName "MaxKeys".toList by decide) value
    exact ⟨sound, tag, content, same, soundTag, named, legible, isNumber⟩
  | isTruncated value =>
    cases value with
    | true =>
      have plain : IsPlain "true".toList := ⟨by decide, by decide⟩
      have spells := Markup.spells_self plain.free
      exact writes_told (by decide) spells
        ⟨"true", by decide, writesText_between plain.trimmed spells⟩
    | false =>
      have spells := Markup.spells_self isPlain_false.free
      exact writes_told (by decide) spells
        ⟨"false", by decide, writesText_between isPlain_false.trimmed spells⟩

end ListingField

/-- A way to write a bucket. -/
structure Layout where
  /-- Whether the document begins with a declaration. -/
  declared : Bool
  /-- The white space before the element of the bucket. -/
  before : List Char
  /-- The attributes of this element. -/
  attributes : List Attribute
  /-- Whether it is told that there is more of the bucket, or that there is not. -/
  truncation : Option Bool
  row : Row (ListingField ⊕ Record)
  /-- The white space at the end. -/
  after : List Char

/-- Whether the texts of a listing have no white space at their ends, its entity tags no
quotes there, and its numbers fit into their words. -/
structure Legible (listing : Listing) : Prop where
  fields : ∀ field ∈ ListingField.all listing none, field.Legible
  objects : ∀ object ∈ listing.contents, ∀ field ∈ ObjectField.all object object.etag,
    field.Legible

instance (listing : Listing) : Decidable listing.Legible :=
  decidable_of_iff (_ ∧ _)
    ⟨fun each => ⟨each.1, each.2⟩, fun legible => ⟨legible.fields, legible.objects⟩⟩

namespace Layout

def itemTree : ListingField ⊕ Record → Tree
  | .inl field => field.tree
  | .inr record => record.tree

def tag (layout : Layout) : Tag :=
  ⟨"ListBucketResult".toList, layout.attributes, []⟩

def root (layout : Layout) : Tree :=
  .element layout.tag (layout.row.trees itemTree)

def declaration : Tree :=
  .instruction "xml version=\"1.0\" encoding=\"UTF-8\"".toList

/-- What stands before the element of the bucket. -/
def prolog (layout : Layout) : List Tree :=
  (if layout.declared then [declaration] else []) ++ between layout.before

def trees (layout : Layout) : List Tree :=
  layout.prolog ++ layout.root :: between layout.after

/-- The document of a bucket. -/
def document (layout : Layout) : String :=
  String.ofList (Tree.writeAll layout.trees)

/-- The fields of the bucket, in their order. -/
def fields (layout : Layout) : List ListingField :=
  layout.row.items.filterMap Sum.getLeft?

/-- The records of the objects, in their order. -/
def records (layout : Layout) : List Record :=
  layout.row.items.filterMap Sum.getRight?

/-- Whether a layout tells all of a listing: its objects in their order, and its fields in
any order between and around these. -/
structure Tells (layout : Layout) (listing : Listing) : Prop where
  before : IsGap layout.before
  after : IsGap layout.after
  tag : layout.tag.Sound
  spaced : layout.row.IsSpaced
  isTruncated : layout.truncation.getD false = listing.isTruncated
  fields : layout.fields.Perm (ListingField.all listing layout.truncation)
  objects : layout.records.map Record.object = listing.contents
  complete : ∀ record ∈ layout.records, record.Complete

variable {layout : Layout} {listing : Listing}

/-- What an item of the row is of the listing. -/
def meant : ListingField ⊕ Record → ListingItem :=
  Sum.map id Record.object

private theorem objectsOf_map_meant (layout : Layout) :
    objectsOf (layout.row.items.map meant) = layout.records.map Record.object := by
  unfold objectsOf records
  rw [List.filterMap_map, List.map_filterMap]
  apply List.filterMap_congr
  intro item _
  cases item <;> rfl

private theorem fieldsOf_map_meant (layout : Layout) :
    fieldsOf (layout.row.items.map meant) = layout.fields := by
  unfold fieldsOf fields
  rw [List.filterMap_map]
  apply List.filterMap_congr
  intro item _
  cases item <;> rfl

private theorem Tells.legible_field (tells : layout.Tells listing) (legible : listing.Legible)
    {field : ListingField} (member : field ∈ layout.fields) : field.Legible := by
  have told := tells.fields.mem_iff.mp member
  rcases List.mem_append.mp told with others | truncation
  · exact legible.fields field (List.mem_append_left _ others)
  · obtain ⟨value, _, rfl⟩ := List.mem_map.mp truncation
    trivial

/-- Every item of a row is written as what it is of the listing. -/
theorem Tells.writes_item (tells : layout.Tells listing) (legible : listing.Legible)
    {item : ListingField ⊕ Record} (member : item ∈ layout.row.items) :
    (itemTree item).Sound ∧ WritesItem (meant item) (itemTree item) := by
  cases item with
  | inl field =>
    have isField : field ∈ layout.fields := List.mem_filterMap.mpr ⟨_, member, rfl⟩
    exact ListingField.writes_tree (tells.legible_field legible isField)
  | inr record =>
    have isRecord : record ∈ layout.records := List.mem_filterMap.mpr ⟨_, member, rfl⟩
    have isObject : record.object ∈ listing.contents := by
      rw [← tells.objects]
      exact List.mem_map_of_mem isRecord
    exact (tells.complete record isRecord).writes_tree (legible.objects _ isObject)

private theorem Tells.writes_root (tells : layout.Tells listing) (legible : listing.Legible) :
    layout.root.Sound ∧
      WritesElement "ListBucketResult" (WritesListing listing) layout.root := by
  have each : ∀ item ∈ layout.row.items,
      (itemTree item).Sound ∧ WritesItem (meant item) (itemTree item) :=
    fun item member => tells.writes_item legible member
  have sound : Tree.AllSound (layout.row.trees itemTree) := by
    apply allSound_trees tells.spaced
    intro item member
    refine ⟨(each item member).1, ?_⟩
    cases item with
    | inl field => exact isPlain_of_writesElement (each _ member).2
    | inr record => rfl
  have writes : WritesListing listing (layout.row.trees itemTree) := by
    refine ⟨layout.truncation, layout.row.items.map meant, tells.isTruncated, ?_, ?_, ?_⟩
    · rw [objectsOf_map_meant, tells.objects]
    · rw [fieldsOf_map_meant]
      exact tells.fields
    · apply WritesEach.map
      apply writesEach_trees tells.spaced
      exact fun item member => (each item member).2
  have soundRoot : layout.root.Sound := by
    unfold root
    rw [Tree.Sound]
    exact ⟨tells.tag, sound⟩
  exact ⟨soundRoot, layout.tag, _, rfl, tells.tag, rfl, writes⟩

private theorem sound_declaration : declaration.Sound := by
  have noMark : '?' ∉ "xml version=\"1.0\" encoding=\"UTF-8\"".toList := by decide
  unfold declaration
  rw [Tree.Sound]
  refine ⟨?_, by decide⟩
  intro ends
  exact noMark (ends.subset (by decide))

/-- The trees of a document can be told apart. -/
theorem allSound (layout : Layout) (before : IsGap layout.before) (after : IsGap layout.after)
    (soundRoot : layout.root.Sound) : Tree.AllSound layout.trees := by
  have ending := allSound_between after Tree.allSound_nil (by simp)
  rw [List.append_nil] at ending
  have body : Tree.AllSound (layout.root :: between layout.after) :=
    Tree.allSound_cons_of_not_text soundRoot rfl ending
  have spaced : Tree.AllSound (between layout.before ++ layout.root :: between layout.after) := by
    apply allSound_between before body
    intro next first
    rw [← Option.some.inj first]
    rfl
  unfold trees prolog
  rw [List.append_assoc]
  cases layout.declared with
  | false => exact spaced
  | true => exact Tree.allSound_cons_of_not_text sound_declaration rfl spaced

/-- There is no element before that of the bucket. -/
theorem isMisc_prolog (layout : Layout) (before : IsGap layout.before) :
    ∀ tree ∈ layout.prolog, tree.IsMisc := by
  intro tree member
  rcases List.mem_append.mp member with isDeclaration | isGap
  · cases declared : layout.declared with
    | false => simp [declared] at isDeclaration
    | true =>
      rw [declared, if_pos rfl, List.mem_singleton] at isDeclaration
      rw [isDeclaration]
      trivial
  · unfold between at isGap
    split at isGap
    · exact absurd isGap List.not_mem_nil
    · rw [List.mem_singleton.mp isGap]
      exact before

private theorem Tells.writesDocument (tells : layout.Tells listing) (legible : listing.Legible) :
    WritesDocument listing layout.document := by
  obtain ⟨soundRoot, writesRoot⟩ := tells.writes_root legible
  have sound := layout.allSound tells.before tells.after soundRoot
  exact ⟨layout.prolog, layout.root, between layout.after, String.toList_ofList, sound,
    layout.isMisc_prolog tells.before, writesRoot⟩

/-- A listing told field after field, and object after object. -/
def straight (listing : Listing) : Layout where
  declared := true
  before := []
  attributes := []
  truncation := some listing.isTruncated
  row := .close ((ListingField.all listing (some listing.isTruncated)).map Sum.inl ++
    (listing.contents.map Record.straight).map Sum.inr)
  after := []

private theorem fields_straight (listing : Listing) :
    (straight listing).fields = ListingField.all listing (some listing.isTruncated) := by
  unfold fields straight
  rw [Row.items_close, List.filterMap_append, List.filterMap_map, List.filterMap_map]
  simp [Function.comp_def]

private theorem records_straight (listing : Listing) :
    (straight listing).records = listing.contents.map Record.straight := by
  unfold records straight
  rw [Row.items_close, List.filterMap_append, List.filterMap_map, List.filterMap_map]
  simp [Function.comp_def]

/-- Every listing can be told. -/
theorem tells_straight (listing : Listing) : (straight listing).Tells listing where
  before := List.forall_mem_nil _
  after := List.forall_mem_nil _
  tag := Tag.sound_named (show IsName "ListBucketResult".toList by decide)
  spaced := Row.isSpaced_close _
  isTruncated := rfl
  fields := .of_eq (fields_straight listing)
  objects := by
    rw [records_straight, List.map_map]
    exact List.map_id _
  complete := by
    intro record isRecord
    rw [records_straight] at isRecord
    obtain ⟨object, _, rfl⟩ := List.mem_map.mp isRecord
    exact Record.complete_straight object

end Layout

variable {listing : Listing}

/-- Every listing whose texts can be written has a document, and is read back from
each of its documents. -/
theorem legible_listing_is_read_back (legible : listing.Legible) :
    (∃ layout : Layout, layout.Tells listing) ∧
      ∀ layout : Layout, layout.Tells listing → ofDocument layout.document = .ok listing := by
  refine ⟨⟨_, Layout.tells_straight listing⟩, ?_⟩
  intro layout tells
  exact ofDocument_eq (tells.writesDocument legible)

/-! ### Records in two places -/

/-- An object with characters that have names. -/
def pointed : ListedObject :=
  ⟨"<a> & b", some "2011-10-03", "5eb6\"-2", 18446744073709551615,
    some ⟨some "75aa", some "Tom & Jerry's"⟩, some "STANDARD"⟩

def twoObjects : Listing :=
  ⟨some "bucket", none, none, some 1000, true, [pointed, .named "&lt;" "e80b" 6]⟩

def pointedRecord : Record where
  object := pointed
  quotes := .plain
  fields := ⟨[
    ([' '], .size 18446744073709551615),
    ([], .etag "5eb6\"-2"),
    (['\n', '\t'], .owner ⟨some "75aa", some "Tom & Jerry's"⟩),
    ([], .storageClass "STANDARD"),
    ([], .key "<a> & b"),
    ([], .lastModified "2011-10-03")], []⟩
  ownerFields := ⟨[([], .displayName "Tom & Jerry's"), ([' '], .id "75aa")], []⟩

/-- Two records with other elements between them and behind. -/
def interrupted : Layout where
  declared := true
  before := ['\n']
  attributes := [⟨[' '], "xmlns".toList, '"', "urn:buckets".toList⟩]
  truncation := some true
  row := ⟨[
    (['\n'], .inr pointedRecord),
    (['\n'], .inl (.maxKeys 1000)),
    ([], .inl (.isTruncated true)),
    (['\n'], .inr (.straight (.named "&lt;" "e80b" 6))),
    ([], .inl (.name "bucket"))], ['\n']⟩
  after := []

private theorem complete_pointedRecord : pointedRecord.Complete where
  spaced := ⟨by decide, by decide⟩
  fields := by decide +kernel
  ownerSpaced := ⟨by decide, by decide⟩
  owner := by
    intro owner isOwner
    rw [← Option.some.inj isOwner]
    decide +kernel

private theorem tells_interrupted : interrupted.Tells twoObjects where
  before := by decide
  after := by decide
  tag := by
    have settings : ∀ setting ∈ interrupted.attributes, setting.Sound := by
      intro setting member
      rw [List.mem_singleton.mp member]
      exact ⟨by decide, by decide, by decide, Or.inl rfl, by decide⟩
    exact ⟨by decide, settings, by decide, by decide⟩
  spaced := ⟨by decide, by decide⟩
  isTruncated := rfl
  fields := by decide +kernel
  objects := rfl
  complete := by
    intro record member
    have among : record ∈ [pointedRecord, .straight (.named "&lt;" "e80b" 6)] := member
    simp only [List.mem_cons, List.not_mem_nil, or_false] at among
    rcases among with rfl | rfl
    · exact complete_pointedRecord
    · exact Record.complete_straight _

theorem interrupted_records_are_read_back :
    twoObjects.Legible ∧ interrupted.Tells twoObjects ∧
    ofDocument interrupted.document = .ok twoObjects ∧
    interrupted.document.toList = [
      "<?xml version=\"1.0\" encoding=\"UTF-8\"?>\n",
      "<ListBucketResult xmlns=\"urn:buckets\">\n",
      "<Contents> <Size>18446744073709551615</Size>",
      "<ETag>\"5eb6&quot;-2\"</ETag>\n",
      "\t<Owner><DisplayName>Tom &amp; Jerry&apos;s",
      "</DisplayName> <ID>75aa</ID></Owner>",
      "<StorageClass>STANDARD</StorageClass>",
      "<Key>&lt;a&gt; &amp; b</Key>",
      "<LastModified>2011-10-03</LastModified></Contents>\n",
      "<MaxKeys>1000</MaxKeys><IsTruncated>true</IsTruncated>\n",
      "<Contents><Key>&amp;lt;</Key>",
      "<ETag>&quot;e80b&quot;</ETag><Size>6</Size></Contents>",
      "<Name>bucket</Name>\n</ListBucketResult>"].flatMap String.toList := by
  have legible : twoObjects.Legible := by decide +kernel
  obtain ⟨_, read⟩ := legible_listing_is_read_back legible
  refine ⟨legible, tells_interrupted, read interrupted tells_interrupted, ?_⟩
  exact String.toList_ofList.trans (by decide +kernel)

end ContentStore.Listing
