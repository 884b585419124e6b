import ContentStore.Proofs.Bucket.Honest
import Mathlib.Logic.Function.Basic

/-!
Contract: buckets that answer every call with the truth, seen as maps.

Owns:
- `Contents`, a map from fingerprints to contents;
- what each call answers on a bucket without faults, and what it leaves;
- `Bucket.contents`, the map that a bucket holds, and `Bucket.Truthful`, by
  which this map is all that can be learnt about fingerprints;
- what storing a content makes of the map, and that a truthful bucket stays one.

Does not own: keys that are no fingerprints.
-/

namespace ContentStore

/-- What stands under each fingerprint. -/
abbrev Contents := Fingerprint → Option Bytes

namespace Bucket

variable {bucket : Bucket} {key : String} {object : StoredObject} {fingerprint : Fingerprint}
  {content : Bytes}

/-! ## Calls without faults -/

/-- The bucket with one more call in its log. -/
def noting (bucket : Bucket) (verb : Verb) (key : String) : Bucket :=
  { bucket with calls := bucket.calls ++ [(verb, key)] }

@[simp]
theorem noting_objects (bucket : Bucket) (verb : Verb) (key : String) :
    (bucket.noting verb key).objects = bucket.objects :=
  rfl

@[simp]
theorem noting_find? (bucket : Bucket) (verb : Verb) (noted key : String) :
    (bucket.noting verb noted).find? key = bucket.find? key :=
  rfl

theorem call_of_calm (calm : bucket.faults = []) (verb : Verb) (key : String) :
    bucket.call verb key = (none, bucket.noting verb key) := by
  simp [call, noting, calm]

theorem head_of_calm (calm : bucket.faults = []) (key : String) :
    bucket.head key = (.ok (match bucket.find? key with
      | some object => .present object.size
      | none => .absent), bucket.noting .head key) := by
  simp only [head, call_of_calm calm, noting_find?]
  cases bucket.find? key <;> rfl

theorem get_of_calm (calm : bucket.faults = []) (key : String) :
    bucket.get key = (match bucket.find? key with
      | some object => (.ok object.content.length, object.content)
      | none => (.error (.notFound key), []), bucket.noting .get key) := by
  simp only [get, call_of_calm calm, noting_find?]
  cases bucket.find? key <;> rfl

theorem put_of_calm (calm : bucket.faults = []) (content : Bytes) :
    bucket.put content = (.ok (Fingerprint.ofContent content),
      (bucket.noting .put (Fingerprint.ofContent content).text).insert
        (Fingerprint.ofContent content).text (objectOf content)) := by
  simp only [put, call_of_calm calm]

theorem find?_insert_self (bucket : Bucket) (key : String) (solid : object.isGhost = false) :
    (bucket.insert key object).find? key = some object := by
  unfold find?
  rw [listed?_insert_self, Option.filter_some, solid]
  rfl

theorem find?_insert_of_ne {other : String} (bucket : Bucket) (object : StoredObject)
    (different : other ≠ key) : (bucket.insert key object).find? other = bucket.find? other := by
  unfold find?
  rw [listed?_insert_of_ne bucket object different]

/-! ## The map that a bucket holds -/

/-- The map that a bucket holds under fingerprints. -/
def contents (bucket : Bucket) : Contents :=
  fun fingerprint => (bucket.find? fingerprint.text).map StoredObject.content

theorem contents_of_objects {after : Bucket} (same : after.objects = bucket.objects) :
    after.contents = bucket.contents := by
  funext fingerprint
  unfold contents
  rw [find?_of_objects same]

/-- Every call is answered with the truth, and every object under a fingerprint
hashes to it. -/
structure Truthful (bucket : Bucket) : Prop where
  calm : bucket.faults = []
  measured : ∀ fingerprint object, bucket.find? (Fingerprint.text fingerprint) = some object →
    object.size = object.content.length
  hashed : ∀ fingerprint content, bucket.contents fingerprint = some content →
    Fingerprint.ofContent content = fingerprint

theorem truthful_empty (name : String) : (empty name).Truthful :=
  ⟨rfl, by simp [empty, find?, listed?], by simp [empty, contents, find?, listed?]⟩

/-- An object that is put under a fingerprint replaces what stood there. -/
theorem contents_insert_object (bucket : Bucket) (fingerprint : Fingerprint)
    (solid : object.isGhost = false) :
    (bucket.insert fingerprint.text object).contents =
      Function.update bucket.contents fingerprint (some object.content) := by
  funext other
  by_cases same : other = fingerprint
  · rw [same, Function.update_self]
    unfold contents
    rw [find?_insert_self bucket _ solid]
    rfl
  · have differentText : other.text ≠ fingerprint.text :=
      fun sameText => same (Fingerprint.ext_text sameText)
    rw [Function.update_of_ne same]
    unfold contents
    rw [find?_insert_of_ne bucket _ differentText]

/-- Storing a content puts it under its fingerprint. -/
theorem contents_insert (bucket : Bucket) (content : Bytes) :
    (bucket.insert (Fingerprint.ofContent content).text (objectOf content)).contents =
      Function.update bucket.contents (Fingerprint.ofContent content) (some content) :=
  contents_insert_object bucket _ rfl

/-- A look-up tells the length of what the map holds. -/
theorem head_of_measured (calm : bucket.faults = [])
    (measured : ∀ object, bucket.find? fingerprint.text = some object →
      object.size = object.content.length) :
    bucket.head fingerprint.text = (.ok (match bucket.contents fingerprint with
      | some content => .present content.length
      | none => .absent), bucket.noting .head fingerprint.text) := by
  rw [head_of_calm calm]
  unfold contents
  cases found : bucket.find? fingerprint.text with
  | none => rfl
  | some object =>
    have isLength := measured object found
    simp only [Option.map_some, isLength]

/-- A fetch gives what the map holds. -/
theorem get_contents (calm : bucket.faults = []) (fingerprint : Fingerprint) :
    bucket.get fingerprint.text = (match bucket.contents fingerprint with
      | some content => (.ok content.length, content)
      | none => (.error (.notFound fingerprint.text), []),
      bucket.noting .get fingerprint.text) := by
  rw [get_of_calm calm]
  unfold contents
  cases bucket.find? fingerprint.text <;> rfl

namespace Truthful

theorem noting (truthful : bucket.Truthful) (verb : Verb) (key : String) :
    (bucket.noting verb key).Truthful :=
  ⟨truthful.calm, truthful.measured, truthful.hashed⟩

/-- What a bucket tells without faults depends on its objects alone. -/
theorem of_objects (truthful : bucket.Truthful) {after : Bucket} (calm : after.faults = [])
    (same : after.objects = bucket.objects) : after.Truthful where
  calm := calm
  measured := by
    intro fingerprint object found
    rw [find?_of_objects same] at found
    exact truthful.measured fingerprint object found
  hashed := by
    rw [contents_of_objects same]
    exact truthful.hashed

theorem insert (truthful : bucket.Truthful) (content : Bytes) :
    (bucket.insert (Fingerprint.ofContent content).text (objectOf content)).Truthful where
  calm := truthful.calm
  measured := by
    intro fingerprint object found
    by_cases same : fingerprint = Fingerprint.ofContent content
    · rw [same, find?_insert_self bucket _ rfl] at found
      rw [← Option.some.inj found]
      rfl
    · have differentText : fingerprint.text ≠ (Fingerprint.ofContent content).text :=
        fun sameText => same (Fingerprint.ext_text sameText)
      rw [find?_insert_of_ne bucket _ differentText] at found
      exact truthful.measured fingerprint object found
  hashed := by
    intro fingerprint other present
    rw [contents_insert] at present
    by_cases same : fingerprint = Fingerprint.ofContent content
    · rw [same, Function.update_self] at present
      rw [← Option.some.inj present, same]
    · rw [Function.update_of_ne same] at present
      exact truthful.hashed fingerprint other present

theorem head (truthful : bucket.Truthful) (fingerprint : Fingerprint) :
    bucket.head fingerprint.text = (.ok (match bucket.contents fingerprint with
      | some content => .present content.length
      | none => .absent), bucket.noting .head fingerprint.text) :=
  head_of_measured truthful.calm (truthful.measured fingerprint)

end Truthful

end Bucket

end ContentStore
