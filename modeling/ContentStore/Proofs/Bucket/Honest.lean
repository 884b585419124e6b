import ContentStore.Proofs.Bucket

/-!
Contract: buckets in which every object hashes to its key.

Owns:
- `Bucket.Honest`, by which every object hashes to its key and no call answers
  anything but the truth, though calls may fail; every call keeps it;
- what an honest bucket answers to the calls that look for an object or store
  one;
- `Bucket.Holds`, by which an honest bucket has an object under a fingerprint;
  every call keeps it but the deletion of that object.

Does not own: which calls are made.
-/

namespace ContentStore

/-- A fault by which a call fails, and has no effect. -/
def Fault.Fails (fault : Fault) : Prop :=
  ∃ cause written, fault.effect = .failure cause written

namespace Bucket

variable {bucket after : Bucket} {key other : String} {object : StoredObject} {verb : Verb}
  {fingerprint : Fingerprint}

/-- Every object in the bucket hashes to its key, and calls answer the truth or
fail. -/
structure Honest (bucket : Bucket) : Prop where
  hashed : ∀ stored ∈ bucket.objects, (Fingerprint.ofContent stored.2.content).text = stored.1
  failing : ∀ fault ∈ bucket.faults, fault.Fails

theorem honest_empty (name : String) : (empty name).Honest :=
  ⟨by simp [empty], by simp [empty]⟩

/-- What is found under a key stands in the bucket. -/
theorem mem_of_find? (found : bucket.find? key = some object) : (key, object) ∈ bucket.objects := by
  obtain ⟨listed, _⟩ := Option.filter_eq_some_iff.mp found
  exact mem_of_listed? listed

theorem find?_of_objects (same : after.objects = bucket.objects) (key : String) :
    after.find? key = bucket.find? key := by
  unfold find? listed?
  rw [same]

theorem mem_place {stored : String × StoredObject} {objects : List (String × StoredObject)}
    (member : stored ∈ place key object objects) : stored = (key, object) ∨ stored ∈ objects := by
  induction objects with
  | nil => exact Or.inl (List.mem_singleton.mp member)
  | cons head tail inductionHypothesis =>
    obtain ⟨kept, kept_object⟩ := head
    unfold place at member
    split at member
    · exact List.mem_cons.mp member
    · split at member
      · rcases List.mem_cons.mp member with rfl | later
        · exact Or.inl rfl
        · exact Or.inr (List.mem_cons_of_mem _ later)
      · rcases List.mem_cons.mp member with rfl | later
        · exact Or.inr List.mem_cons_self
        · exact (inductionHypothesis later).imp id (List.mem_cons_of_mem _)

namespace Honest

/-- What is found under a fingerprint hashes to it. -/
theorem ofContent_eq (honest : bucket.Honest)
    (found : bucket.find? fingerprint.text = some object) :
    Fingerprint.ofContent object.content = fingerprint := by
  apply Fingerprint.ext_text
  exact honest.hashed (fingerprint.text, object) (mem_of_find? found)

/-- A call on an honest bucket either fails or goes on over the same objects. -/
theorem call (honest : bucket.Honest) {effect : Option FaultEffect}
    (called : bucket.call verb key = (effect, after)) :
    after.Honest ∧ after.objects = bucket.objects ∧
      ∀ struck, effect = some struck → ∃ cause written, struck = .failure cause written := by
  obtain ⟨sameEffect, rfl⟩ := Prod.mk.inj called
  refine ⟨⟨honest.hashed, ?_⟩, rfl, ?_⟩
  · intro fault member
    exact honest.failing fault (List.mem_of_mem_eraseP member)
  · rintro struck rfl
    obtain ⟨fault, found, rfl⟩ := Option.map_eq_some_iff.mp sameEffect
    exact honest.failing fault (List.mem_of_find?_eq_some found)

theorem head (honest : bucket.Honest) (key : String) :
    (bucket.head key).2.Honest ∧ (bucket.head key).2.objects = bucket.objects ∧
      ∀ length, (bucket.head key).1 = .ok (.present length) →
        ∃ object, bucket.find? key = some object := by
  unfold Bucket.head
  split <;> rename_i called <;> obtain ⟨kept, same, failing⟩ := honest.call called
  · exact ⟨kept, same, by simp⟩
  · obtain ⟨_, _, lied⟩ := failing _ rfl
    exact absurd lied (by simp)
  · obtain ⟨_, _, lied⟩ := failing _ rfl
    exact absurd lied (by simp)
  · split
    · rename_i object found
      rw [find?_of_objects same] at found
      exact ⟨kept, same, fun _ _ => ⟨object, found⟩⟩
    · exact ⟨kept, same, by simp⟩

theorem get (honest : bucket.Honest) (key : String) :
    (bucket.get key).2.Honest ∧ (bucket.get key).2.objects = bucket.objects := by
  unfold Bucket.get
  split <;> rename_i called <;> obtain ⟨kept, same, failing⟩ := honest.call called
  · exact ⟨kept, same⟩
  · exact ⟨kept, same⟩
  · split <;> exact ⟨kept, same⟩

theorem list (honest : bucket.Honest) : bucket.list.2.Honest := by
  unfold Bucket.list
  split <;> rename_i called <;> exact (honest.call called).1

theorem insert (honest : bucket.Honest) (content : Bytes) :
    (bucket.insert (Fingerprint.ofContent content).text (objectOf content)).Honest where
  hashed := by
    intro stored member
    rcases mem_place member with rfl | before
    · rfl
    · exact honest.hashed stored before
  failing := honest.failing

/-- Letting one more call fail keeps a bucket honest. -/
theorem addFault (honest : bucket.Honest) {fault : Fault} (fails : fault.Fails) :
    (bucket.addFault fault).Honest where
  hashed := honest.hashed
  failing := by
    intro other member
    rcases List.mem_append.mp member with before | last
    · exact honest.failing other before
    · rw [List.mem_singleton.mp last]
      exact fails

private theorem erase (honest : bucket.Honest) (key : String) : (bucket.erase key).Honest where
  hashed := fun stored member => honest.hashed stored (List.mem_of_mem_filter member)
  failing := honest.failing

/-- What is stored is found from then on, under the fingerprint of its content,
and nothing else is lost. -/
theorem put (honest : bucket.Honest) (content : Bytes) :
    (bucket.put content).2.Honest ∧
      (∀ key object, bucket.find? key = some object →
        ∃ other, (bucket.put content).2.find? key = some other) ∧
      ∀ fingerprint, (bucket.put content).1 = .ok fingerprint →
        ∃ object, (bucket.put content).2.find? fingerprint.text = some object := by
  unfold Bucket.put
  simp only
  split <;> rename_i called <;> obtain ⟨kept, same, failing⟩ := honest.call called
  · refine ⟨kept, ?_, by simp⟩
    intro key object found
    exact ⟨object, (find?_of_objects same key).trans found⟩
  · obtain ⟨_, _, lied⟩ := failing _ rfl
    exact absurd lied (by simp)
  · rename_i after
    have stored : (after.insert (Fingerprint.ofContent content).text (objectOf content)).find?
        (Fingerprint.ofContent content).text = some (objectOf content) := by
      unfold find?
      rw [listed?_insert_self]
      rfl
    refine ⟨kept.insert content, ?_, ?_⟩
    · intro key object found
      by_cases sameKey : key = (Fingerprint.ofContent content).text
      · rw [sameKey]
        exact ⟨_, stored⟩
      · refine ⟨object, ?_⟩
        rw [← found, ← find?_of_objects same]
        unfold find?
        rw [listed?_insert_of_ne _ _ sameKey]
    · intro fingerprint answered
      rw [← Except.ok.inj answered]
      exact ⟨_, stored⟩

theorem delete (honest : bucket.Honest) (key : String) : (bucket.delete key).2.Honest := by
  unfold Bucket.delete
  split <;> rename_i called <;> obtain ⟨kept, _, _⟩ := honest.call called
  · exact kept
  · split
    · exact kept.erase key
    · exact kept

end Honest

/-! ## Buckets that hold a content -/

/-- An honest bucket with an object under a fingerprint. -/
structure Holds (bucket : Bucket) (fingerprint : Fingerprint) : Prop extends Honest bucket where
  present : ∃ object, bucket.find? fingerprint.text = some object

namespace Holds

/-- The object that is held hashes to the fingerprint. -/
theorem exists_content (holds : bucket.Holds fingerprint) :
    ∃ object, bucket.find? fingerprint.text = some object ∧
      Fingerprint.ofContent object.content = fingerprint := by
  obtain ⟨object, found⟩ := holds.present
  exact ⟨object, found, holds.ofContent_eq found⟩

theorem of_objects (holds : bucket.Holds fingerprint) (honest : after.Honest)
    (same : after.objects = bucket.objects) : after.Holds fingerprint where
  toHonest := honest
  present := by
    rw [find?_of_objects same]
    exact holds.present

theorem put (holds : bucket.Holds fingerprint) (content : Bytes) :
    (bucket.put content).2.Holds fingerprint := by
  obtain ⟨honest, kept, _⟩ := holds.toHonest.put content
  obtain ⟨object, found⟩ := holds.present
  exact ⟨honest, kept _ object found⟩

/-- A deletion takes nothing away under other keys. -/
theorem delete (holds : bucket.Holds fingerprint) (different : fingerprint.text ≠ key) :
    (bucket.delete key).2.Holds fingerprint where
  toHonest := holds.toHonest.delete key
  present := by
    unfold find?
    rw [listed?_delete_of_ne bucket different]
    exact holds.present

end Holds

end Bucket

end ContentStore
