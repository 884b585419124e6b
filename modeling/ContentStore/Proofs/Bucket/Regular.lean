import ContentStore.Proofs.Bucket.Truthful
import Mathlib.Data.List.Sort
import Mathlib.Data.String.Basic

/-!
Contract: buckets that hold contents under fingerprints and nothing else.

Owns:
- `Contents.presence`, `download` and `removal`, what a map answers;
- `Regular`, by which a bucket is a map from fingerprints to contents, whose
  entity tags are the fingerprints;
- what each call answers on such a bucket, what it makes of the map, and that
  the bucket stays regular;
- `Contents.Enumerates`, and that such a bucket lists what its map holds, each of
  it once, in ascending order.

Does not own: buckets with ghosts, with other keys, or with faults.
-/

namespace ContentStore

/-! ## What a map answers -/

namespace Contents

variable (contents : Contents) (fingerprint : Fingerprint)

def presence : Presence :=
  match contents fingerprint with
  | some content => .present content.length
  | none => .absent

/-- What is told of a content that is fetched, and its octets. -/
def download : Except StoreError Nat × Bytes :=
  match contents fingerprint with
  | some content => (.ok content.length, content)
  | none => (.error (.notFound fingerprint.text), [])

def removal : Removal :=
  match contents fingerprint with
  | some _ => .deleted
  | none => .alreadyAbsent

end Contents

namespace Bucket

variable {bucket : Bucket} {fingerprint : Fingerprint} {content : Bytes} {key : String}
  {object : StoredObject}

/-- What stands under a fingerprint. -/
def shelved (fingerprint : Fingerprint) (content : Bytes) : StoredObject :=
  ⟨content, fingerprint.text, content.length, false⟩

/-- No faults, and contents under fingerprints, in ascending order of these. -/
structure Regular (bucket : Bucket) : Prop where
  calm : bucket.faults = []
  ascending : (bucket.objects.map Prod.fst).Pairwise (· < ·)
  plain : ∀ key object, (key, object) ∈ bucket.objects →
    ∃ fingerprint content, key = Fingerprint.text fingerprint ∧
      object = shelved fingerprint content

theorem regular_empty (name : String) : (empty name).Regular where
  calm := rfl
  ascending := List.Pairwise.nil
  plain := fun _ _ member => absurd member List.not_mem_nil

/-! ## Objects in ascending order -/

private theorem mem_keys_place {other : String} {objects : List (String × StoredObject)}
    (member : other ∈ (place key object objects).map Prod.fst) :
    other = key ∨ other ∈ objects.map Prod.fst := by
  obtain ⟨stored, among, rfl⟩ := List.mem_map.mp member
  rcases mem_place among with rfl | before
  · exact Or.inl rfl
  · exact Or.inr (List.mem_map_of_mem before)

private theorem ascending_place {objects : List (String × StoredObject)}
    (ascending : (objects.map Prod.fst).Pairwise (· < ·)) (key : String) (object : StoredObject) :
    ((place key object objects).map Prod.fst).Pairwise (· < ·) := by
  induction objects with
  | nil => exact List.pairwise_singleton _ _
  | cons head rest inductionHypothesis =>
    obtain ⟨other, kept⟩ := head
    obtain ⟨before, ascendingRest⟩ := List.pairwise_cons.mp ascending
    unfold place
    by_cases isBefore : key < other
    · rw [if_pos isBefore]
      apply List.pairwise_cons.mpr
      refine ⟨?_, ascending⟩
      intro later member
      rcases List.mem_cons.mp member with rfl | among
      · exact isBefore
      · exact lt_trans isBefore (before later among)
    · rw [if_neg isBefore]
      by_cases same : key = other
      · rw [if_pos same, same]
        exact ascending
      · rw [if_neg same]
        apply List.pairwise_cons.mpr
        refine ⟨?_, inductionHypothesis ascendingRest⟩
        intro later member
        rcases mem_keys_place member with rfl | among
        · exact lt_of_le_of_ne (not_lt.mp isBefore) (Ne.symm same)
        · exact before later among

namespace Regular

private theorem nodup (regular : bucket.Regular) : (bucket.objects.map Prod.fst).Nodup :=
  regular.ascending.imp ne_of_lt

theorem noting (regular : bucket.Regular) (verb : Verb) (key : String) :
    (bucket.noting verb key).Regular :=
  ⟨regular.calm, regular.ascending, regular.plain⟩

theorem insert (regular : bucket.Regular) (fingerprint : Fingerprint) (content : Bytes) :
    (bucket.insert fingerprint.text (shelved fingerprint content)).Regular where
  calm := regular.calm
  ascending := ascending_place regular.ascending _ _
  plain := by
    intro key object member
    rcases mem_place member with same | before
    · obtain ⟨rfl, rfl⟩ := Prod.mk.inj same
      exact ⟨fingerprint, content, rfl, rfl⟩
    · exact regular.plain key object before

theorem erase (regular : bucket.Regular) (key : String) : (bucket.erase key).Regular where
  calm := regular.calm
  ascending := regular.ascending.sublist (List.filter_sublist.map Prod.fst)
  plain := fun other object member => regular.plain other object (List.mem_of_mem_filter member)

/-! ## The map -/

theorem contents_eq_some_iff (regular : bucket.Regular) :
    bucket.contents fingerprint = some content ↔
      (fingerprint.text, shelved fingerprint content) ∈ bucket.objects := by
  unfold contents
  constructor
  · intro present
    obtain ⟨object, found, same⟩ := Option.map_eq_some_iff.mp present
    have member := mem_of_find? found
    obtain ⟨other, held, sameKey, rfl⟩ := regular.plain _ _ member
    rw [← Fingerprint.ext_text sameKey] at member
    rw [← same]
    exact member
  · intro member
    have listed := listed?_eq_some_of_mem regular.nodup member
    unfold find?
    rw [listed]
    rfl

private theorem find?_eq (regular : bucket.Regular) (fingerprint : Fingerprint) :
    bucket.find? fingerprint.text = (bucket.contents fingerprint).map (shelved fingerprint) := by
  cases present : bucket.contents fingerprint with
  | none =>
    unfold contents at present
    exact Option.map_eq_none_iff.mp present
  | some content =>
    have member := regular.contents_eq_some_iff.mp present
    have listed := listed?_eq_some_of_mem regular.nodup member
    unfold find?
    rw [listed]
    rfl

theorem contents_erase (regular : bucket.Regular) (fingerprint : Fingerprint) :
    (bucket.erase fingerprint.text).contents =
      Function.update bucket.contents fingerprint none := by
  funext other
  by_cases same : other = fingerprint
  · rw [same, Function.update_self]
    cases present : (bucket.erase fingerprint.text).contents fingerprint with
    | none => rfl
    | some content =>
      have member := (regular.erase fingerprint.text).contents_eq_some_iff.mp present
      exact absurd (List.mem_filter.mp member).2 (by simp)
  · have differentText : other.text ≠ fingerprint.text :=
      fun sameText => same (Fingerprint.ext_text sameText)
    rw [Function.update_of_ne same]
    unfold contents find?
    rw [listed?_erase_of_ne bucket differentText]

/-! ## Calls -/

theorem head (regular : bucket.Regular) (fingerprint : Fingerprint) :
    bucket.head fingerprint.text =
      (.ok (bucket.contents.presence fingerprint), bucket.noting .head fingerprint.text) := by
  apply head_of_measured regular.calm
  intro object found
  rw [regular.find?_eq] at found
  obtain ⟨content, _, rfl⟩ := Option.map_eq_some_iff.mp found
  rfl

theorem get (regular : bucket.Regular) (fingerprint : Fingerprint) :
    bucket.get fingerprint.text =
      (bucket.contents.download fingerprint, bucket.noting .get fingerprint.text) :=
  get_contents regular.calm fingerprint

/-- A deletion takes the content out of the map, and tells whether there was
one. -/
theorem delete (regular : bucket.Regular) (fingerprint : Fingerprint) :
    (bucket.delete fingerprint.text).1 = .ok (bucket.contents.removal fingerprint) ∧
    (bucket.delete fingerprint.text).2.Regular ∧
    (bucket.delete fingerprint.text).2.contents =
      Function.update bucket.contents fingerprint none := by
  have found := regular.find?_eq fingerprint
  simp only [Bucket.delete, Contents.removal, call_of_calm regular.calm, noting_find?, found]
  cases present : bucket.contents fingerprint with
  | none =>
    refine ⟨rfl, regular.noting _ _, ?_⟩
    have same : Function.update bucket.contents fingerprint none = bucket.contents := by
      rw [← present, Function.update_eq_self]
    rw [same]
    exact contents_of_objects rfl
  | some content =>
    exact ⟨rfl, (regular.noting _ _).erase _, (regular.noting _ _).contents_erase fingerprint⟩

end Regular

private theorem list_of_calm (calm : bucket.faults = []) :
    bucket.list = (.ok (bucket.objects.map fun (key, object) =>
      ListedObject.named key object.etag (UInt64.ofNat object.size)), bucket.noting .list "") := by
  simp only [list, call_of_calm calm, noting_objects]

end Bucket

/-! ## Listings -/

/-- Contents under their fingerprints, each that a map holds once. -/
structure Contents.Enumerates (contents : Contents) (entries : List (Fingerprint × Bytes)) :
    Prop where
  once : (entries.map Prod.fst).Nodup
  mem_iff : ∀ fingerprint content,
    (fingerprint, content) ∈ entries ↔ contents fingerprint = some content

theorem Contents.Enumerates.perm {contents : Contents} {entries others : List (Fingerprint × Bytes)}
    (enumerates : contents.Enumerates entries) (enumeratesOthers : contents.Enumerates others) :
    entries.Perm others := by
  have onceEntries := List.Nodup.of_map Prod.fst enumerates.once
  have onceOthers := List.Nodup.of_map Prod.fst enumeratesOthers.once
  apply (List.perm_ext_iff_of_nodup onceEntries onceOthers).mpr
  rintro ⟨fingerprint, content⟩
  rw [enumerates.mem_iff, enumeratesOthers.mem_iff]

namespace ListedObject

/-- What is told of a content: its fingerprint, as key and as entity tag, and its
size. -/
def ofEntry (entry : Fingerprint × Bytes) : ListedObject :=
  named entry.1.text entry.1.text (UInt64.ofNat entry.2.length)

/-- Objects in ascending order of their keys. -/
def inOrder (objects : List ListedObject) : List ListedObject :=
  objects.mergeSort fun left right => !decide (right.key < left.key)

/-- A listing in ascending order of keys is what any other order of it is brought
into. -/
theorem inOrder_eq {objects others : List ListedObject} (perm : objects.Perm others)
    (ascending : (others.map key).Pairwise (· < ·)) : inOrder objects = others := by
  have once : (others.map key).Nodup := ascending.imp ne_of_lt
  have sorted : (inOrder objects).Pairwise
      fun left right => (!decide (right.key < left.key)) = true := by
    apply List.pairwise_mergeSort
    · intro left middle right
      simp only [Bool.not_eq_true', decide_eq_false_iff_not, not_lt]
      exact fun first second => le_trans first second
    · intro left right
      simp only [Bool.or_eq_true, Bool.not_eq_true', decide_eq_false_iff_not, not_lt]
      exact le_total left.key right.key
  have sortedOthers : others.Pairwise
      fun left right => (!decide (right.key < left.key)) = true := by
    apply (List.pairwise_map.mp ascending).imp
    intro left right less
    simp only [Bool.not_eq_true', decide_eq_false_iff_not, not_lt]
    exact le_of_lt less
  apply List.Perm.eq_of_pairwise _ sorted sortedOthers ((List.mergeSort_perm _ _).trans perm)
  intro left right leftMember rightMember notAfter notBefore
  have leftAmong : left ∈ others :=
    perm.mem_iff.mp ((List.mergeSort_perm _ _).mem_iff.mp leftMember)
  simp only [Bool.not_eq_true', decide_eq_false_iff_not, not_lt] at notAfter notBefore
  exact List.inj_on_of_nodup_map once leftAmong rightMember (le_antisymm notAfter notBefore)

end ListedObject

namespace Bucket.Regular

variable {bucket : Bucket}

private theorem exists_entries {objects : List (String × StoredObject)}
    (plain : ∀ key object, (key, object) ∈ objects →
      ∃ fingerprint content, key = Fingerprint.text fingerprint ∧
        object = shelved fingerprint content) :
    ∃ entries : List (Fingerprint × Bytes),
      objects = entries.map fun entry => (entry.1.text, shelved entry.1 entry.2) := by
  induction objects with
  | nil => exact ⟨[], rfl⟩
  | cons first rest inductionHypothesis =>
    obtain ⟨entries, same⟩ := inductionHypothesis
      fun key object member => plain key object (List.mem_cons_of_mem _ member)
    obtain ⟨fingerprint, content, sameKey, sameObject⟩ :=
      plain first.1 first.2 List.mem_cons_self
    refine ⟨(fingerprint, content) :: entries, ?_⟩
    rw [List.map_cons, same, ← sameKey, ← sameObject]

/-- A regular bucket lists what its map holds, in ascending order of keys. -/
theorem list (regular : bucket.Regular) :
    ∃ entries, bucket.contents.Enumerates entries ∧
      ((entries.map ListedObject.ofEntry).map ListedObject.key).Pairwise (· < ·) ∧
        bucket.list = (.ok (entries.map ListedObject.ofEntry), bucket.noting .list "") := by
  obtain ⟨entries, same⟩ := exists_entries regular.plain
  have ascending := regular.ascending
  rw [same, List.map_map] at ascending
  have once : ((entries.map Prod.fst).map Fingerprint.text).Nodup := by
    rw [List.map_map]
    exact ascending.imp ne_of_lt
  refine ⟨entries, ⟨once.of_map, ?_⟩, ?_, ?_⟩
  · intro fingerprint content
    rw [regular.contents_eq_some_iff, same, List.mem_map]
    constructor
    · intro member
      exact ⟨_, member, rfl⟩
    · rintro ⟨⟨other, held⟩, member, sameEntry⟩
      obtain ⟨sameText, sameObject⟩ := Prod.mk.inj sameEntry
      rw [← Fingerprint.ext_text sameText, ← (StoredObject.mk.inj sameObject).1]
      exact member
  · rw [List.map_map]
    exact ascending
  · rw [list_of_calm regular.calm, same, List.map_map]
    rfl

end Bucket.Regular

/-- Every map whose contents can be enumerated is the map of a bucket. -/
theorem Contents.Enumerates.exists_bucket {contents : Contents}
    {entries : List (Fingerprint × Bytes)} (enumerates : contents.Enumerates entries)
    (name : String) :
    ∃ bucket : Bucket, bucket.name = name ∧ bucket.Regular ∧ bucket.contents = contents := by
  induction entries generalizing contents with
  | nil =>
    refine ⟨Bucket.empty name, rfl, Bucket.regular_empty name, ?_⟩
    funext fingerprint
    cases present : contents fingerprint with
    | none => rfl
    | some content =>
      exact absurd ((enumerates.mem_iff fingerprint content).mpr present) List.not_mem_nil
  | cons first rest inductionHypothesis =>
    obtain ⟨fingerprint, content⟩ := first
    obtain ⟨isNew, onceRest⟩ := List.nodup_cons.mp enumerates.once
    have present : contents fingerprint = some content :=
      (enumerates.mem_iff fingerprint content).mp List.mem_cons_self
    have enumeratesRest : Contents.Enumerates (Function.update contents fingerprint none) rest := by
      refine ⟨onceRest, ?_⟩
      intro other held
      by_cases same : other = fingerprint
      · rw [same, Function.update_self]
        constructor
        · intro member
          exact absurd (List.mem_map_of_mem member) isNew
        · intro absent
          exact absurd absent (by simp)
      · rw [Function.update_of_ne same, ← enumerates.mem_iff, List.mem_cons]
        constructor
        · exact Or.inr
        · rintro (isFirst | member)
          · exact absurd (Prod.mk.inj isFirst).1 same
          · exact member
    obtain ⟨bucket, named, regular, sameRest⟩ := inductionHypothesis enumeratesRest
    refine ⟨bucket.insert fingerprint.text (Bucket.shelved fingerprint content), named,
      regular.insert fingerprint content, ?_⟩
    rw [Bucket.contents_insert_object bucket fingerprint rfl, sameRest, Function.update_idem]
    show Function.update contents fingerprint (some content) = contents
    rw [← present, Function.update_eq_self]

end ContentStore
