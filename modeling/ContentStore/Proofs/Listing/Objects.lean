import ContentStore.Proofs.Listing.Fields

/-!
Contract: the records of objects in listings, as they are written and read.

Owns:
- `ObjectField` and `WritesObject`, by which the fields of an object are written
  in any order, and its entity tag with or without quotes;
- `readObject_eq`, by which the object is read again.

Does not own: what stands between the records.
-/

namespace ContentStore.Listing

open Markup (Node Tree WritesText nodesOf)
open Text.Decimal (words64)

variable {name : String} {node : Node}

inductive ObjectField where
  | key (value : String)
  | lastModified (value : String)
  | etag (value : String)
  | size (value : UInt64)
  | owner (value : ObjectOwner)
  | storageClass (value : String)
deriving DecidableEq

namespace ObjectField

def label : ObjectField → String
  | key _ => "Key"
  | lastModified _ => "LastModified"
  | etag _ => "ETag"
  | size _ => "Size"
  | owner _ => "Owner"
  | storageClass _ => "StorageClass"

def set (draft : ObjectDraft) : ObjectField → ObjectDraft
  | key value => { draft with key := some value }
  | lastModified value => { draft with lastModified := some value }
  | etag value => { draft with etag := some value }
  | size value => { draft with size := some value.toNat }
  | owner value => { draft with owner := some value }
  | storageClass value => { draft with storageClass := some value }

def IsUnset (draft : ObjectDraft) : ObjectField → Prop
  | key _ => draft.key = none
  | lastModified _ => draft.lastModified = none
  | etag _ => draft.etag = none
  | size _ => draft.size = none
  | owner _ => draft.owner = none
  | storageClass _ => draft.storageClass = none

/-- What an element holds that tells a field. -/
def Holds : ObjectField → List Tree → Prop
  | key value => WritesText value.toList
  | lastModified value => WritesText value.toList
  | etag value => WritesText value.toList
  | size value => WritesNumber value.toNat
  | owner value => WritesOwner value
  | storageClass value => WritesText value.toList

def HoldsNodes : ObjectField → List Node → Prop
  | key value => AreText value
  | lastModified value => AreText value
  | etag value => AreText value
  | size value => AreNumber value.toNat
  | owner value => AreOwner value
  | storageClass value => AreText value

/-- The element that tells a field. -/
def Writes (field : ObjectField) : Tree → Prop :=
  WritesElement field.label field.Holds

private theorem apart (draft : ObjectDraft) (left right : ObjectField)
    (different : left.label ≠ right.label) (unset : IsUnset draft left) :
    IsUnset (set draft right) left := by
  cases left <;> cases right <;> first | exact unset | exact absurd rfl different

private theorem commute (draft : ObjectDraft) (left right : ObjectField)
    (different : left.label ≠ right.label) :
    set (set draft left) right = set (set draft right) left := by
  cases left <;> cases right <;> first | rfl | exact absurd rfl different

private theorem holdsNodes_nodesOf (field : ObjectField) (content : List Tree)
    (holds : field.Holds content) : field.HoldsNodes (nodesOf content) := by
  cases field with
  | size value => exact areNumber_nodesOf value.toNat content holds
  | owner value => exact areOwner_nodesOf value content holds
  | key value => exact areText_nodesOf value content holds
  | lastModified value => exact areText_nodesOf value content holds
  | etag value => exact areText_nodesOf value content holds
  | storageClass value => exact areText_nodesOf value content holds

private theorem bare (field : ObjectField) :
    Node.localPart field.label.toList = field.label.toList := by
  have all : ∀ label ∈ ["Key", "LastModified", "ETag", "Size", "Owner", "StorageClass"],
      Node.localPart label.toList = label.toList := by decide
  apply all
  cases field <;> simp [label]

theorem isName_label (field : ObjectField) : Markup.IsName field.label.toList := by
  cases field <;> simp only [label] <;> decide

private theorem addChild_eq (field : ObjectField)
    (isElement : IsElement field.label field.HoldsNodes node)
    (draft : ObjectDraft) (unset : IsUnset draft field) :
    addChild addToObject draft node = .ok (set draft field) := by
  rw [addChild_eq_add isElement field.bare]
  cases field with
  | key value =>
    have unsetKey : draft.key = none := unset
    simp only [label, addToObject, once, readText_eq isElement, unsetKey]
    rfl
  | lastModified value =>
    have unsetTime : draft.lastModified = none := unset
    simp only [label, addToObject, once, readText_eq isElement, unsetTime]
    rfl
  | etag value =>
    have unsetTag : draft.etag = none := unset
    simp only [label, addToObject, once, readText_eq isElement, unsetTag]
    rfl
  | size value =>
    have unsetSize : draft.size = none := unset
    have small : value.toNat < words64 := value.toNat_lt
    simp only [label, addToObject, once, readNumber_eq isElement small, unsetSize]
    rfl
  | owner value =>
    have unsetOwner : draft.owner = none := unset
    simp only [label, addToObject, once, readOwner_eq isElement, unsetOwner]
    rfl
  | storageClass value =>
    have unsetClass : draft.storageClass = none := unset
    simp only [label, addToObject, once, readText_eq isElement, unsetClass]
    rfl

/-- The fields that are told of an object, with its entity tag as it is
written. -/
def all (object : ListedObject) (tag : String) : List ObjectField :=
  [key object.key, etag tag, size object.size] ++
    object.lastModified.toList.map lastModified ++ object.owner.toList.map owner ++
      object.storageClass.toList.map storageClass

private theorem foldl_all (object : ListedObject) (tag : String) :
    (all object tag).foldl set ⟨none, none, none, none, none, none⟩ =
      ⟨some object.key, object.lastModified, some tag, some object.size.toNat, object.owner,
        object.storageClass⟩ := by
  obtain ⟨objectKey, _ | time, objectTag, objectSize, _ | holder, _ | storage⟩ := object <;> rfl

private theorem nodup_all (object : ListedObject) (tag : String) :
    ((all object tag).map label).Nodup := by
  obtain ⟨objectKey, _ | time, objectTag, objectSize, _ | holder, _ | storage⟩ := object <;>
    simp [all, label]

end ObjectField

/-! ## Entity tags -/

/-- A tag with no white space and no quotes at its ends. -/
structure BareTag (tag : String) : Prop where
  head : ∀ symbol ∈ tag.toList.head?, Text.isBlank symbol = false ∧ symbol ≠ '"'
  last : ∀ symbol ∈ tag.toList.getLast?, Text.isBlank symbol = false ∧ symbol ≠ '"'

instance (tag : String) : Decidable (BareTag tag) :=
  decidable_of_iff (_ ∧ _) ⟨fun ends => ⟨ends.1, ends.2⟩, fun bare => ⟨bare.head, bare.last⟩⟩

def quoteTag (tag : String) : String :=
  String.ofList ('"' :: (tag.toList ++ ['"']))

variable {tag : String}

private theorem BareTag.unquoteTag (bare : BareTag tag) : unquoteTag tag = tag := by
  have keptFirst : ∀ symbol ∈ tag.toList.head?, (symbol == '"') = false :=
    fun symbol first => beq_false_of_ne (bare.head symbol first).2
  have keptLast : ∀ symbol ∈ tag.toList.getLast?, (symbol == '"') = false :=
    fun symbol last => beq_false_of_ne (bare.last symbol last).2
  unfold Listing.unquoteTag
  rw [Text.trim_eq_self (fun symbol first => (bare.head symbol first).1)
    (fun symbol last => (bare.last symbol last).1), Text.trim_eq_self keptFirst keptLast,
    String.ofList_toList]

private theorem BareTag.unquoteTag_quoteTag (bare : BareTag tag) :
    Listing.unquoteTag (quoteTag tag) = tag := by
  have keptFirst : ∀ symbol ∈ tag.toList.head?, (symbol == '"') = false :=
    fun symbol first => beq_false_of_ne (bare.head symbol first).2
  have keptLast : ∀ symbol ∈ tag.toList.getLast?, (symbol == '"') = false :=
    fun symbol last => beq_false_of_ne (bare.last symbol last).2
  have quoteKept : Text.isBlank '"' = false := by decide
  have quotes : Text.trim Text.isBlank ('"' :: (tag.toList ++ ['"'])) =
      '"' :: (tag.toList ++ ['"']) := by
    apply Text.trim_eq_self
    · intro symbol first
      rw [← Option.some.inj first]
      exact quoteKept
    · intro symbol last
      rw [← List.cons_append, List.getLast?_append] at last
      rw [← Option.some.inj last]
      exact quoteKept
  unfold Listing.unquoteTag quoteTag
  rw [String.toList_ofList, quotes, Text.trim_between (by decide) keptFirst keptLast,
    String.ofList_toList]

/-! ## Objects -/

/-- An object with its fields in some order. -/
def WritesObject (object : ListedObject) (content : List Tree) : Prop :=
  BareTag object.etag ∧ ∃ tag fields, (tag = object.etag ∨ tag = quoteTag object.etag) ∧
    List.Perm fields (ObjectField.all object tag) ∧
      WritesEach ObjectField.Writes fields content

/-- An object as nodes. -/
def AreObject (object : ListedObject) (content : List Node) : Prop :=
  ∃ tag fields, unquoteTag tag = object.etag ∧
    List.Perm fields (ObjectField.all object tag) ∧
      List.Forall₂ (fun field node =>
        IsElement (ObjectField.label field) field.HoldsNodes node) fields content

theorem areObject_nodesOf (object : ListedObject) (content : List Tree)
    (writes : WritesObject object content) : AreObject object (nodesOf content) := by
  obtain ⟨bare, tag, fields, spelled, perm, written⟩ := writes
  refine ⟨tag, fields, ?_, perm, written.forall₂ ?_⟩
  · rcases spelled with rfl | rfl
    · exact bare.unquoteTag
    · exact bare.unquoteTag_quoteTag
  · intro field tree writesField
    exact WritesElement.exists_node writesField field.holdsNodes_nodesOf

/-- An object is read from its fields, whatever their order. -/
theorem readObject_eq {object : ListedObject} (isElement : IsElement name (AreObject object) node) :
    readObject node = .ok object := by
  obtain ⟨attributes, content, same, sound, tag, fields, unquoted, perm, elements⟩ := isElement
  have reads := elements.imp fun field node isField => field.addChild_eq isField
  have unset : ∀ field ∈ ObjectField.all object tag,
      ObjectField.IsUnset ⟨none, none, none, none, none, none⟩ field := by
    intro field member
    cases field <;> rfl
  have read := readRecord_eq ObjectField.apart ObjectField.commute
    ⟨attributes, content, same, sound, reads⟩ perm (ObjectField.nodup_all object tag) unset
  rw [ObjectField.foldl_all] at read
  unfold readObject
  rw [read]
  show Except.ok (ListedObject.mk object.key object.lastModified (unquoteTag tag)
    (UInt64.ofNat object.size.toNat) object.owner object.storageClass) = _
  rw [unquoted, UInt64.ofNat_toNat]

end ContentStore.Listing
