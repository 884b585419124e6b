import ContentStore.Bucket
import Mathlib.Data.List.Nodup

/-!
Contract: what the calls on a bucket in memory do to its objects.

Owns: for every call the objects that the bucket lists afterwards, under the
key of the call and under all others, whether the call fails or not.

Does not own: the log of the calls, and which faults are set.
-/

namespace ContentStore.Bucket

variable {bucket : Bucket} {key other : String} {object : StoredObject}

/-! ## Placing and erasing objects -/

theorem listed?_erase_of_ne (bucket : Bucket) (different : other ≠ key) :
    (bucket.erase key).listed? other = bucket.listed? other := by
  unfold listed? erase
  induction bucket.objects with
  | nil => rfl
  | cons head tail inductionHypothesis =>
    obtain ⟨kept, stored⟩ := head
    by_cases same : kept = key
    · have passed : (other == kept) = false := by simpa [same] using different
      rw [List.filter_cons_of_neg (by simpa using same), inductionHypothesis,
        List.lookup_cons, passed]
    · rw [List.filter_cons_of_pos (by simpa using same), List.lookup_cons, List.lookup_cons,
        inductionHypothesis]

private theorem lookup_place_self (key : String) (object : StoredObject)
    (objects : List (String × StoredObject)) :
    (place key object objects).lookup key = some object := by
  induction objects with
  | nil => simp [place]
  | cons head tail inductionHypothesis =>
    obtain ⟨kept, stored⟩ := head
    unfold place
    split
    · simp
    · split
      · simp
      · rename_i different
        rw [List.lookup_cons, beq_false_of_ne different]
        exact inductionHypothesis

private theorem lookup_place_of_ne (object : StoredObject)
    (objects : List (String × StoredObject)) (different : other ≠ key) :
    (place key object objects).lookup other = objects.lookup other := by
  induction objects with
  | nil => simp [place, different]
  | cons head tail inductionHypothesis =>
    obtain ⟨kept, stored⟩ := head
    unfold place
    split
    · rw [List.lookup_cons, beq_false_of_ne different]
    · split
      · rename_i same
        rw [List.lookup_cons, List.lookup_cons, ← same, beq_false_of_ne different]
      · rw [List.lookup_cons, List.lookup_cons, inductionHypothesis]

theorem listed?_insert_self (bucket : Bucket) (key : String) (object : StoredObject) :
    (bucket.insert key object).listed? key = some object :=
  lookup_place_self key object bucket.objects

theorem listed?_insert_of_ne (bucket : Bucket) (object : StoredObject)
    (different : other ≠ key) :
    (bucket.insert key object).listed? other = bucket.listed? other :=
  lookup_place_of_ne object bucket.objects different

/-- With each key once, an object is listed under the key that it stands under. -/
theorem listed?_eq_some_of_mem (once : (bucket.objects.map Prod.fst).Nodup)
    (member : (key, object) ∈ bucket.objects) : bucket.listed? key = some object := by
  unfold listed?
  cases found : bucket.objects.lookup key with
  | none =>
    have absent := List.lookup_eq_none_iff.mp found _ member
    simp at absent
  | some other =>
    obtain ⟨front, back, split, _⟩ := List.lookup_eq_some_iff.mp found
    have otherMember : (key, other) ∈ bucket.objects := by simp [split]
    have same := List.inj_on_of_nodup_map once member otherMember rfl
    rw [(Prod.mk.inj same).2]

theorem mem_of_listed? (listed : bucket.listed? key = some object) :
    (key, object) ∈ bucket.objects := by
  obtain ⟨front, back, split, _⟩ := List.lookup_eq_some_iff.mp listed
  simp [split]

/-! ## Calls -/

variable {verb : Verb} {effect : Option FaultEffect} {after : Bucket}

private theorem objects_of_call (called : bucket.call verb key = (effect, after)) :
    after.objects = bucket.objects := by
  have same : (bucket.call verb key).2 = after := by rw [called]
  rw [← same]
  rfl

@[simp]
theorem list_objects (bucket : Bucket) : bucket.list.2.objects = bucket.objects := by
  unfold list
  split <;> rename_i called <;> exact objects_of_call called

/-- What a bucket lists stands in it, with its entity tag. -/
theorem mem_of_list {objects : List ListedObject} {listing : ListedObject}
    (listed : bucket.list.1 = .ok objects) (member : listing ∈ objects) :
    ∃ stored, (listing.key, stored) ∈ bucket.objects ∧ listing.etag = stored.etag := by
  unfold list at listed
  split at listed
  · exact absurd listed (by simp)
  · rename_i called
    rw [← Except.ok.inj listed, objects_of_call called] at member
    obtain ⟨⟨kept, stored⟩, present, rfl⟩ := List.mem_map.mp member
    exact ⟨stored, present, rfl⟩

/-- A deletion takes out what stands under its key, or nothing. -/
theorem delete_objects (key : String) (bucket : Bucket) :
    (bucket.delete key).2.objects = bucket.objects ∨
      (bucket.delete key).2.objects = (bucket.erase key).objects := by
  unfold delete
  split <;> rename_i called
  · exact Or.inl (objects_of_call called)
  · split
    · refine Or.inr ?_
      unfold erase
      rw [objects_of_call called]
    · exact Or.inl (objects_of_call called)

theorem listed?_delete_of_ne (bucket : Bucket) (different : other ≠ key) :
    (bucket.delete key).2.listed? other = bucket.listed? other := by
  rcases delete_objects key bucket with same | erased
  · unfold listed?
    rw [same]
  · rw [← listed?_erase_of_ne bucket different]
    unfold listed?
    rw [erased]

end ContentStore.Bucket
