import ContentStore.Proofs.Bucket.Regular
import ContentStore.Proofs.Listing.Documents

/-!
Contract: listings of fingerprints, as a server may write them.

Owns:
- `render`, a document with a record of key, quoted entity tag and size for each
  object;
- that for fingerprints this is a document of the listing of the objects.

Does not own: the other ways in which a server may write the same.
-/

namespace ContentStore.Listing

open Markup (IsName Tag Tree Trimmed WritesText spells_self)

/-! ## Texts without blanks and markup -/

/-- The visible characters of ASCII, but for those that are read as markup. -/
def isPlainSymbol (symbol : Char) : Bool :=
  0x20 < symbol.toNat && symbol.toNat < 0x7f && symbol != '<' && symbol != '&'

/-- A text that can stand between two tags as it is. -/
structure IsPlain (text : List Char) : Prop where
  some_text : text ≠ []
  all_plain : ∀ symbol ∈ text, isPlainSymbol symbol = true

variable {symbol : Char} {text : List Char} {name : String}

private theorem visible_of_isPlainSymbol (plain : isPlainSymbol symbol = true) :
    0x20 < symbol.toNat ∧ symbol.toNat < 0x7f ∧ symbol ≠ '<' ∧ symbol ≠ '&' := by
  simpa [isPlainSymbol, and_assoc] using plain

private theorem not_isBlank_of_isPlainSymbol (plain : isPlainSymbol symbol = true) :
    Markup.isBlank symbol = false ∧ Text.isBlank symbol = false := by
  obtain ⟨above, below, _⟩ := visible_of_isPlainSymbol plain
  have notBlank : ∀ blank ∈ [' ', '\t', '\r', '\n'], symbol ≠ blank := by
    rintro blank among rfl
    have small : ∀ blank ∈ [' ', '\t', '\r', '\n'], blank.toNat ≤ 0x20 := by decide
    exact absurd above (Nat.not_lt.mpr (small symbol among))
  constructor
  · simp only [List.mem_cons, List.not_mem_nil, or_false, forall_eq_or_imp, forall_eq] at notBlank
    simp [Markup.isBlank, notBlank]
  · simp only [Text.isBlank, Bool.or_eq_false_iff, Bool.and_eq_false_iff, decide_eq_false_iff_not,
      beq_eq_false_iff_ne]
    omega

private theorem isPlainSymbol_of_isDigit (digit : Bytes.Hex.IsDigit symbol) :
    isPlainSymbol symbol = true ∧ symbol ≠ '"' := by
  have noMark : ∀ mark ∈ ['<', '&', '"'], ¬ Bytes.Hex.IsDigit mark := by decide
  have different : ∀ mark ∈ ['<', '&', '"'], symbol ≠ mark := by
    rintro mark among rfl
    exact noMark symbol among digit
  have range := Text.range_of_isDigit digit
  have notOpening := different '<' (by decide)
  have notReference := different '&' (by decide)
  refine ⟨?_, different '"' (by decide)⟩
  simp only [isPlainSymbol, Bool.and_eq_true, decide_eq_true_eq, bne_iff_ne]
  exact ⟨⟨⟨by omega, by omega⟩, notOpening⟩, notReference⟩

namespace IsPlain

theorem trimmed (plain : IsPlain text) : Trimmed text where
  head := fun _ first =>
    (not_isBlank_of_isPlainSymbol (plain.all_plain _ (List.mem_of_mem_head? first))).1
  last := fun _ last =>
    (not_isBlank_of_isPlainSymbol (plain.all_plain _ (List.mem_of_getLast? last))).1

theorem free (plain : IsPlain text) : ∀ symbol ∈ text, symbol ≠ '<' ∧ symbol ≠ '&' :=
  fun symbol member => (visible_of_isPlainSymbol (plain.all_plain symbol member)).2.2

private theorem writes (plain : IsPlain text) : WritesText text [.plain text] :=
  .spelled plain.some_text plain.trimmed (spells_self plain.free)

private theorem sound (plain : IsPlain text) : (Tree.plain text).Sound :=
  (spells_self plain.free).sound_plain plain.some_text

private theorem quoteTag {tag : String} (plain : IsPlain tag.toList) :
    IsPlain (quoteTag tag).toList := by
  unfold Listing.quoteTag
  rw [String.toList_ofList]
  refine ⟨List.cons_ne_nil _ _, ?_⟩
  intro symbol member
  simp only [List.mem_cons, List.mem_append, List.not_mem_nil, or_false] at member
  rcases member with rfl | inside | rfl
  · decide
  · exact plain.all_plain symbol inside
  · decide

end IsPlain

theorem isPlain_decimal (number : Nat) : IsPlain (Text.Decimal.write number) := by
  obtain ⟨some_digit, all_digits, _⟩ := Text.Decimal.spells_write number
  refine ⟨some_digit, ?_⟩
  intro symbol member
  exact (isPlainSymbol_of_isDigit (Text.isDigit_of_decimal (all_digits symbol member))).1

private theorem isPlain_fingerprint (fingerprint : Fingerprint) :
    IsPlain fingerprint.text.toList := by
  obtain ⟨length, digits⟩ := fingerprint.wellFormed
  refine ⟨?_, fun symbol member => (isPlainSymbol_of_isDigit (digits symbol member)).1⟩
  intro void
  rw [void] at length
  exact absurd length (by decide)

private theorem bareTag_fingerprint (fingerprint : Fingerprint) : BareTag fingerprint.text := by
  have each : ∀ symbol ∈ fingerprint.text.toList, Text.isBlank symbol = false ∧ symbol ≠ '"' := by
    intro symbol member
    obtain ⟨plain, notQuote⟩ := isPlainSymbol_of_isDigit (fingerprint.wellFormed.2 symbol member)
    exact ⟨(not_isBlank_of_isPlainSymbol plain).2, notQuote⟩
  exact ⟨fun symbol first => each symbol (List.mem_of_mem_head? first),
    fun symbol last => each symbol (List.mem_of_getLast? last)⟩

/-! ## Rendering -/

/-- An element that holds a text. -/
def leaf (name : String) (text : List Char) : Tree :=
  .element (.named name) [.plain text]

def record (object : ListedObject) : Tree :=
  .element (.named "Contents") [leaf "Key" object.key.toList,
    leaf "ETag" (quoteTag object.etag).toList, leaf "Size" (Text.Decimal.write object.size.toNat)]

def root (objects : List ListedObject) : Tree :=
  .element (.named "ListBucketResult") (leaf "IsTruncated" "false".toList :: objects.map record)

/-- A document that lists objects. -/
def render (objects : List ListedObject) : String :=
  String.ofList (Tree.writeAll [root objects])

private theorem sound_leaf (isName : IsName name.toList) (plain : IsPlain text) :
    (leaf name text).Sound :=
  Tree.sound_element isName (Tree.allSound_singleton plain.sound)

private theorem writes_leaf {Holds : List Tree → Prop} (isName : IsName name.toList)
    (holds : Holds [.plain text]) : WritesElement name Holds (leaf name text) :=
  ⟨.named name, [.plain text], rfl, Tag.sound_named isName, rfl, holds⟩

variable {object : ListedObject} {objects : List ListedObject}

/-- A key and an entity tag that can be written as they are, and nothing but
these and a size. -/
structure IsSimple (object : ListedObject) : Prop where
  key : IsPlain object.key.toList
  etag : IsPlain object.etag.toList
  bare : BareTag object.etag
  named : object = .named object.key object.etag object.size

theorem isSimple_ofEntry (entry : Fingerprint × Bytes) : IsSimple (ListedObject.ofEntry entry) where
  key := isPlain_fingerprint entry.1
  etag := isPlain_fingerprint entry.1
  bare := bareTag_fingerprint entry.1
  named := rfl

private theorem sound_record (simple : IsSimple object) : (record object).Sound := by
  apply Tree.sound_element (by decide)
  apply Tree.allSound_of_elements
  intro tree member
  simp only [List.mem_cons, List.not_mem_nil, or_false] at member
  rcases member with rfl | rfl | rfl
  · exact ⟨sound_leaf (by decide) simple.key, rfl⟩
  · exact ⟨sound_leaf (by decide) simple.etag.quoteTag, rfl⟩
  · exact ⟨sound_leaf (by decide) (isPlain_decimal _), rfl⟩

private theorem writes_record (simple : IsSimple object) :
    WritesElement "Contents" (WritesObject object) (record object) := by
  refine ⟨.named "Contents", _, rfl, Tag.sound_named (by decide), rfl, simple.bare,
    quoteTag object.etag, ObjectField.all object (quoteTag object.etag), Or.inr rfl, .rfl, ?_⟩
  have fields : ObjectField.all object (quoteTag object.etag) =
      [.key object.key, .etag (quoteTag object.etag), .size object.size] := by
    rw [simple.named]
    rfl
  have size : WritesNumber object.size.toNat [.plain (Text.Decimal.write object.size.toNat)] :=
    ⟨_, Text.Decimal.spells_write _, (isPlain_decimal _).writes⟩
  rw [fields]
  exact .item (writes_leaf (ObjectField.isName_label _) simple.key.writes)
    (.item (writes_leaf (ObjectField.isName_label _) simple.etag.quoteTag.writes)
      (.item (writes_leaf (ObjectField.isName_label _) size) .done))

theorem isPlain_false : IsPlain "false".toList :=
  ⟨by decide, by decide⟩

private theorem sound_root (simple : ∀ object ∈ objects, IsSimple object) :
    (root objects).Sound := by
  apply Tree.sound_element (by decide)
  apply Tree.allSound_of_elements
  intro tree member
  rcases List.mem_cons.mp member with rfl | isRecord
  · exact ⟨sound_leaf (by decide) isPlain_false, rfl⟩
  · obtain ⟨object, listed, rfl⟩ := List.mem_map.mp isRecord
    exact ⟨sound_record (simple object listed), rfl⟩

private theorem writes_records (simple : ∀ object ∈ objects, IsSimple object) :
    WritesEach WritesItem (objects.map Sum.inr) (objects.map record) := by
  induction objects with
  | nil => exact .done
  | cons object rest inductionHypothesis =>
    exact .item (writes_record (simple object List.mem_cons_self))
      (inductionHypothesis fun other member => simple other (List.mem_cons_of_mem _ member))

private theorem objectsOf_map_inr (objects : List ListedObject) :
    objectsOf (objects.map Sum.inr) = objects := by
  unfold objectsOf
  rw [List.filterMap_map]
  exact List.filterMap_some

private theorem fieldsOf_map_inr (objects : List ListedObject) :
    fieldsOf (objects.map Sum.inr) = [] := by
  unfold fieldsOf
  rw [List.filterMap_map]
  exact List.filterMap_eq_nil_iff.mpr fun _ _ => rfl

private theorem writesListing_content (simple : ∀ object ∈ objects, IsSimple object) :
    WritesListing ⟨none, none, none, none, false, objects⟩
      (leaf "IsTruncated" "false".toList :: objects.map record) := by
  refine ⟨some false, .inl (.isTruncated false) :: objects.map Sum.inr, rfl, ?_, ?_, ?_⟩
  · exact objectsOf_map_inr objects
  · show List.Perm (.isTruncated false :: fieldsOf (objects.map Sum.inr)) _
    rw [fieldsOf_map_inr]
    exact .rfl
  · have truncation : ∃ word ∈ spellings false,
        WritesText (String.toList word) [.plain "false".toList] :=
      ⟨"false", by decide, isPlain_false.writes⟩
    exact .item (writes_leaf (by decide) truncation) (writes_records simple)

/-- What is rendered is a document of the listing of the objects. -/
theorem writesDocument_render (simple : ∀ object ∈ objects, IsSimple object) :
    WritesDocument ⟨none, none, none, none, false, objects⟩ (render objects) := by
  have sound : Tree.AllSound [root objects] := Tree.allSound_singleton (sound_root simple)
  have writesRoot : WritesElement "ListBucketResult"
      (WritesListing ⟨none, none, none, none, false, objects⟩) (root objects) :=
    ⟨.named "ListBucketResult", _, rfl, Tag.sound_named (by decide), rfl,
      writesListing_content simple⟩
  exact ⟨[], root objects, [], String.toList_ofList, sound, List.forall_mem_nil _, writesRoot⟩

end ContentStore.Listing
