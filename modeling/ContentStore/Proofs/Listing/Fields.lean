import ContentStore.Listing
import ContentStore.Proofs.Markup.Spelling
import ContentStore.Proofs.Text.Decimal
import Mathlib.Data.List.Forall2
import Mathlib.Data.List.Nodup
import Mathlib.Data.List.Perm.Basic

/-!
Contract: records in the documents of listings, as they are written and read.

Owns:
- `WritesElement` and `WritesEach`, elements one after the other with white space
  between them;
- `readRecord_eq`, by which a record is read from its fields in any order, if none
  of them is written twice;
- how texts, numbers and owners are written and read.

Does not own: documents as a whole.
-/

namespace ContentStore.Listing

open Markup (Node Tree Tag WritesText nodesOf)
open Text.Decimal (Spells words64)

/-! ## Elements one after the other -/

/-- Whether a tree is an element of a name with a certain content. -/
def WritesElement (name : String) (Holds : List Tree → Prop) (tree : Tree) : Prop :=
  ∃ tag content, tree = .element tag content ∧ tag.Sound ∧ tag.name = name.toList ∧ Holds content

/-- Items that are written in their order, with white space between them. -/
inductive WritesEach {Item : Type} (Writes : Item → Tree → Prop) :
    List Item → List Tree → Prop where
  | done : WritesEach Writes [] []
  | misc {tree : Tree} {items : List Item} {trees : List Tree} (isMisc : tree.IsMisc)
    (later : WritesEach Writes items trees) : WritesEach Writes items (tree :: trees)
  | item {item : Item} {tree : Tree} {items : List Item} {trees : List Tree}
    (written : Writes item tree) (later : WritesEach Writes items trees) :
    WritesEach Writes (item :: items) (tree :: trees)

/-- Whether a node is an element of a name, well formed and with a certain
content. -/
def IsElement (name : String) (Holds : List Node → Prop) (node : Node) : Prop :=
  ∃ attributes content, node = .element name.toList attributes content true ∧
    Markup.attributesAreSound attributes = true ∧ Holds content

variable {name : String} {tree : Tree} {trees : List Tree} {node : Node}

theorem WritesElement.exists_node {Holds : List Tree → Prop} {HoldsNodes : List Node → Prop}
    (written : WritesElement name Holds tree)
    (reads : ∀ content, Holds content → HoldsNodes (nodesOf content)) :
    ∃ node, IsElement name HoldsNodes node ∧
      ∀ rest, nodesOf (tree :: rest) = node :: nodesOf rest := by
  obtain ⟨tag, content, rfl, sound, named, holds⟩ := written
  refine ⟨_, ⟨tag.attributeText, nodesOf content, rfl, sound.attributesAreSound,
    reads content holds⟩, ?_⟩
  intro rest
  rw [Markup.nodesOf_element, named]

theorem WritesEach.forall₂ {Item : Type} {Writes : Item → Tree → Prop}
    {Reads : Item → Node → Prop} {items : List Item}
    (each : ∀ item tree, Writes item tree → ∃ node, Reads item node ∧
      ∀ rest, nodesOf (tree :: rest) = node :: nodesOf rest)
    (written : WritesEach Writes items trees) : List.Forall₂ Reads items (nodesOf trees) := by
  induction written with
  | done =>
    rw [Markup.nodesOf_nil]
    exact .nil
  | misc isMisc later inductionHypothesis =>
    rw [Markup.nodesOf_misc isMisc]
    exact inductionHypothesis
  | item writtenItem later inductionHypothesis =>
    obtain ⟨node, reads, becomes⟩ := each _ _ writtenItem
    rw [becomes]
    exact .cons reads inductionHypothesis

/-! ## Reading fields -/

section Fields

variable {Draft Field : Type} {add : Draft → String → Node → Except ListingFault Draft}
  {label : Field → String} {set : Draft → Field → Draft} {IsUnset : Draft → Field → Prop}
  {fields others : List Field} {nodes : List Node} {draft : Draft}

/-- Setting a field leaves those unset that have other names. -/
theorem isUnset_set_of_nodup {field : Field}
    (apart : ∀ draft left right, label left ≠ label right → IsUnset draft left →
      IsUnset (set draft right) left)
    (once : ((field :: fields).map label).Nodup)
    (unset : ∀ other ∈ field :: fields, IsUnset draft other) :
    ∀ other ∈ fields, IsUnset (set draft field) other := by
  intro other member
  obtain ⟨newLabel, _⟩ := List.nodup_cons.mp once
  apply apart
  · intro same
    exact newLabel (same ▸ List.mem_map_of_mem member)
  · exact unset other (List.mem_cons_of_mem _ member)

/-- A record is read field by field, if none of them is written twice. -/
theorem foldlM_fields
    (apart : ∀ draft left right, label left ≠ label right → IsUnset draft left →
      IsUnset (set draft right) left)
    (reads : List.Forall₂ (fun field node => ∀ draft, IsUnset draft field →
      addChild add draft node = .ok (set draft field)) fields nodes)
    (once : (fields.map label).Nodup) (unset : ∀ field ∈ fields, IsUnset draft field) :
    nodes.foldlM (addChild add) draft = .ok (fields.foldl set draft) := by
  induction reads generalizing draft with
  | nil => rfl
  | @cons field node fields nodes readsFirst _ inductionHypothesis =>
    have unsetLater := isUnset_set_of_nodup apart once unset
    rw [List.foldlM_cons, readsFirst draft (unset field List.mem_cons_self), List.foldl_cons]
    exact inductionHypothesis (List.nodup_cons.mp once).2 unsetLater

/-- The order of fields does not matter, if none of them is written twice. -/
theorem foldl_fields_perm
    (commute : ∀ draft left right, label left ≠ label right →
      set (set draft left) right = set (set draft right) left)
    (perm : fields.Perm others) (once : (fields.map label).Nodup) (draft : Draft) :
    fields.foldl set draft = others.foldl set draft := by
  apply List.Perm.foldl_eq' perm
  intro left leftMember right rightMember draft
  by_cases same : label left = label right
  · rw [List.inj_on_of_nodup_map once leftMember rightMember same]
  · exact commute draft left right same

/-- A record is read from its fields in any order, if none of them is written
twice. -/
theorem readRecord_eq
    (apart : ∀ draft left right, label left ≠ label right → IsUnset draft left →
      IsUnset (set draft right) left)
    (commute : ∀ draft left right, label left ≠ label right →
      set (set draft left) right = set (set draft right) left)
    (isElement : IsElement name (List.Forall₂ (fun field node => ∀ draft, IsUnset draft field →
      addChild add draft node = .ok (set draft field)) fields) node)
    (perm : fields.Perm others) (once : (others.map label).Nodup)
    (unset : ∀ field ∈ others, IsUnset draft field) :
    readRecord add draft node = .ok (others.foldl set draft) := by
  obtain ⟨attributes, content, rfl, sound, reads⟩ := isElement
  have onceHere : (fields.map label).Nodup := (perm.map label).nodup_iff.mpr once
  have unsetHere : ∀ field ∈ fields, IsUnset draft field :=
    fun field member => unset field (perm.mem_iff.mp member)
  have read := foldlM_fields apart reads onceHere unsetHere
  rw [foldl_fields_perm commute perm onceHere] at read
  simp only [readRecord, sound, if_true, read]
  rfl

end Fields

/-! ## Texts and numbers -/

variable {text : String} {number : Nat}

/-- Whether nodes are a text and nothing else. -/
def AreText (text : String) (content : List Node) : Prop :=
  content = if text.toList = [] then [] else [.text (some text.toList)]

theorem readText_eq (isElement : IsElement name (AreText text) node) :
    readText node = .ok text := by
  obtain ⟨attributes, content, rfl, _, isText⟩ := isElement
  by_cases void : text.toList = []
  · rw [isText, if_pos void, String.toList_eq_nil_iff.mp void]
    rfl
  · rw [isText, if_neg void, readText, String.ofList_toList]

/-- The digits of a number, as a text. -/
def WritesNumber (number : Nat) (content : List Tree) : Prop :=
  ∃ digits, Spells digits number ∧ WritesText digits content

def AreNumber (number : Nat) (content : List Node) : Prop :=
  ∃ digits, Spells digits.toList number ∧ AreText digits content

theorem areText_nodesOf (text : String) (content : List Tree)
    (writes : WritesText text.toList content) : AreText text (nodesOf content) :=
  writes.nodesOf_eq

theorem areNumber_nodesOf (number : Nat) (content : List Tree)
    (writes : WritesNumber number content) : AreNumber number (nodesOf content) := by
  obtain ⟨digits, spells, writesDigits⟩ := writes
  refine ⟨String.ofList digits, ?_, ?_⟩
  · rw [String.toList_ofList]
    exact spells
  · unfold AreText
    rw [String.toList_ofList]
    exact writesDigits.nodesOf_eq

theorem readNumber_eq {limit : Nat} (isElement : IsElement name (AreNumber number) node)
    (small : number < limit) : readNumber limit node = .ok number := by
  obtain ⟨attributes, content, same, sound, digits, spells, isText⟩ := isElement
  have read := readText_eq ⟨attributes, content, same, sound, isText⟩
  simp only [readNumber, read, bind, Except.bind, spells.read_eq small]
  rfl

/-- An element is added under its name, if this has no prefix. -/
theorem addChild_eq_add {Draft : Type} {Holds : List Node → Prop}
    (isElement : IsElement name Holds node) (bare : Node.localPart name.toList = name.toList)
    (add : Draft → String → Node → Except ListingFault Draft) (draft : Draft) :
    addChild add draft node = add draft name node := by
  obtain ⟨attributes, content, rfl, _, _⟩ := isElement
  rw [addChild, bare, String.ofList_toList]

/-! ## Owners -/

inductive OwnerField where
  | id (value : String)
  | displayName (value : String)
deriving DecidableEq

namespace OwnerField

def label : OwnerField → String
  | id _ => "ID"
  | displayName _ => "DisplayName"

def value : OwnerField → String
  | id value => value
  | displayName value => value

def set (owner : ObjectOwner) : OwnerField → ObjectOwner
  | id value => { owner with id := some value }
  | displayName value => { owner with displayName := some value }

def IsUnset (owner : ObjectOwner) : OwnerField → Prop
  | id _ => owner.id = none
  | displayName _ => owner.displayName = none

/-- A field of an owner as an element. -/
def Writes (field : OwnerField) : Tree → Prop :=
  WritesElement field.label (WritesText field.value.toList)

private theorem apart (owner : ObjectOwner) (left right : OwnerField)
    (different : left.label ≠ right.label) (unset : IsUnset owner left) :
    IsUnset (set owner right) left := by
  cases left <;> cases right <;> first | exact unset | exact absurd rfl different

private theorem commute (owner : ObjectOwner) (left right : OwnerField)
    (different : left.label ≠ right.label) :
    set (set owner left) right = set (set owner right) left := by
  cases left <;> cases right <;> first | rfl | exact absurd rfl different

private theorem addChild_eq (field : OwnerField)
    (isElement : IsElement field.label (AreText field.value) node) (owner : ObjectOwner)
    (unset : IsUnset owner field) : addChild addToOwner owner node = .ok (set owner field) := by
  have read := readText_eq isElement
  cases field with
  | id value =>
    have unsetId : owner.id = none := unset
    have bare : Node.localPart "ID".toList = "ID".toList := by decide
    rw [addChild_eq_add isElement bare]
    simp only [label, addToOwner, once, read, unsetId]
    rfl
  | displayName value =>
    have unsetName : owner.displayName = none := unset
    have bare : Node.localPart "DisplayName".toList = "DisplayName".toList := by decide
    rw [addChild_eq_add isElement bare]
    simp only [label, addToOwner, once, read, unsetName]
    rfl

/-- The fields that are told of an owner. -/
def all (owner : ObjectOwner) : List OwnerField :=
  owner.id.toList.map id ++ owner.displayName.toList.map displayName

private theorem foldl_all (owner : ObjectOwner) : (all owner).foldl set ⟨none, none⟩ = owner := by
  obtain ⟨_ | identity, _ | shown⟩ := owner <;> rfl

private theorem nodup_all (owner : ObjectOwner) : ((all owner).map label).Nodup := by
  obtain ⟨_ | identity, _ | shown⟩ := owner <;> simp [all, label]

end OwnerField

/-- An owner with its fields in some order. -/
def WritesOwner (owner : ObjectOwner) (content : List Tree) : Prop :=
  ∃ fields, List.Perm fields (OwnerField.all owner) ∧ WritesEach OwnerField.Writes fields content

/-- An owner as nodes. -/
def AreOwner (owner : ObjectOwner) (content : List Node) : Prop :=
  ∃ fields, List.Perm fields (OwnerField.all owner) ∧
    List.Forall₂ (fun field node => IsElement (OwnerField.label field) (AreText field.value) node)
      fields content

theorem areOwner_nodesOf (owner : ObjectOwner) (content : List Tree)
    (writes : WritesOwner owner content) : AreOwner owner (nodesOf content) := by
  obtain ⟨fields, perm, written⟩ := writes
  refine ⟨fields, perm, written.forall₂ ?_⟩
  intro field tree writesField
  exact WritesElement.exists_node writesField (areText_nodesOf field.value)

theorem readOwner_eq {owner : ObjectOwner} (isElement : IsElement name (AreOwner owner) node) :
    readRecord addToOwner ⟨none, none⟩ node = .ok owner := by
  obtain ⟨attributes, content, same, sound, fields, perm, elements⟩ := isElement
  have reads := elements.imp fun field node isField => OwnerField.addChild_eq field isField
  have unset : ∀ field ∈ OwnerField.all owner, OwnerField.IsUnset ⟨none, none⟩ field := by
    intro field member
    cases field <;> rfl
  rw [readRecord_eq OwnerField.apart OwnerField.commute ⟨attributes, content, same, sound, reads⟩
    perm (OwnerField.nodup_all owner) unset, OwnerField.foldl_all]

end ContentStore.Listing
