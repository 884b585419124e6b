import ContentStore.Proofs.Bucket.Honest

/-!
Contract: what listings and deletions leave of a bucket in memory.

Owns:
- `row`, what a bucket tells of an object, and that a listing which succeeds
  tells just this of every object;
- `left`, the objects that deletions leave, and that a deletion which succeeds
  leaves these, whereas one that fails changes none;
- that every listing and every deletion is noted;
- `Unfailing`, by which no listing and no deletion fails.

Does not own: which keys are deleted.
-/

namespace ContentStore.Bucket

variable {bucket after : Bucket} {key : String}
  {objects : List (String × StoredObject)}

/-- What a bucket tells of an object. -/
def row (entry : String × StoredObject) : ListedObject :=
  ListedObject.named entry.1 entry.2.etag (UInt64.ofNat entry.2.size)

/-- The objects that deletions of some keys leave: those under other keys, and
ghosts. -/
def left (keys : List String) (objects : List (String × StoredObject)) :
    List (String × StoredObject) :=
  objects.filter fun entry => entry.1 ∉ keys ∨ entry.2.isGhost

theorem left_nil (objects : List (String × StoredObject)) : left [] objects = objects := by
  simp [left]

/-- Deletions leave what the later ones leave of what the first one leaves. -/
theorem left_cons (key : String) (keys : List String) (objects : List (String × StoredObject)) :
    left (key :: keys) objects = left keys (left [key] objects) := by
  simp only [left, List.filter_filter]
  apply List.filter_congr
  intro entry _
  rw [← Bool.decide_and, decide_eq_decide, List.mem_cons, List.mem_singleton]
  tauto

theorem nodup_left (once : (objects.map Prod.fst).Nodup) (keys : List String) :
    ((left keys objects).map Prod.fst).Nodup :=
  once.sublist (List.filter_sublist.map Prod.fst)

/-- With each key once, an object that is found is all that a deletion takes
away. -/
theorem erase_objects {object : StoredObject} (once : (bucket.objects.map Prod.fst).Nodup)
    (found : bucket.find? key = some object) :
    (bucket.erase key).objects = left [key] bucket.objects := by
  obtain ⟨listed, solid⟩ := Option.filter_eq_some_iff.mp found
  apply List.filter_congr
  intro entry member
  rw [decide_eq_decide, List.mem_singleton]
  refine ⟨Or.inl, ?_⟩
  rintro (different | ghost)
  · exact different
  · -- the ghost is another object than the one that is found
    intro sameKey
    have present : bucket.listed? entry.1 = some entry.2 := listed?_eq_some_of_mem once member
    rw [sameKey, listed] at present
    rw [← Option.some.inj present] at ghost
    simp [ghost] at solid

/-- A key under which nothing is found has at most ghosts. -/
theorem left_of_absent (once : (bucket.objects.map Prod.fst).Nodup)
    (absent : bucket.find? key = none) : left [key] bucket.objects = bucket.objects := by
  apply List.filter_eq_self.mpr
  intro entry member
  rw [decide_eq_true_iff, List.mem_singleton]
  by_cases sameKey : entry.1 = key
  · have present : bucket.listed? entry.1 = some entry.2 := listed?_eq_some_of_mem once member
    rw [sameKey] at present
    simp only [find?, present, Option.filter_some] at absent
    refine Or.inr ?_
    by_contra solid
    simp [solid] at absent
  · exact Or.inl sameKey

/-! ## Listings and deletions -/

/-- The bucket when a call has been noted. -/
def noted (bucket : Bucket) (verb : Verb) (key : String) : Bucket :=
  (bucket.call verb key).2

/-- Whether a call runs into a fault by which it fails. -/
def Refuses (bucket : Bucket) (verb : Verb) (key : String) (cause : FaultCause) : Prop :=
  ∃ written, (bucket.call verb key).1 = some (.failure cause written)

/-- A listing fails, or tells of all objects. -/
theorem list_cases (bucket : Bucket) :
    (∃ cause, bucket.Refuses .list "" cause ∧
      bucket.list = (.error (cause.error ""), bucket.noted .list "")) ∨
    bucket.list = (.ok (bucket.objects.map row), bucket.noted .list "") := by
  unfold list noted Refuses
  rcases called : bucket.call .list "" with ⟨_ | ⟨cause, written⟩ | _, after⟩
  · rw [← (Prod.mk.inj called).2]
    exact Or.inr rfl
  · exact Or.inl ⟨cause, ⟨written, rfl⟩, rfl⟩
  · rw [← (Prod.mk.inj called).2]
    exact Or.inr rfl

/-- A deletion fails, or takes out what is found under its key, or finds nothing
there. -/
theorem delete_cases (key : String) (bucket : Bucket) :
    (∃ cause, bucket.Refuses .delete key cause ∧
      bucket.delete key = (.error (cause.error key), bucket.noted .delete key)) ∨
    (∃ object, bucket.find? key = some object ∧
      bucket.delete key = (.ok .deleted, (bucket.noted .delete key).erase key)) ∨
    (bucket.find? key = none ∧
      bucket.delete key = (.ok .alreadyAbsent, bucket.noted .delete key)) := by
  have sameFound : (bucket.call .delete key).2.find? key = bucket.find? key := rfl
  unfold delete noted Refuses
  rcases called : bucket.call .delete key with ⟨effect, after⟩
  rw [called] at sameFound
  cases found : bucket.find? key with
  | some object =>
    rw [found] at sameFound
    rcases effect with _ | ⟨cause, written⟩ | _
    · exact Or.inr (Or.inl ⟨object, rfl, by simp only [sameFound]⟩)
    · exact Or.inl ⟨cause, ⟨written, rfl⟩, rfl⟩
    · exact Or.inr (Or.inl ⟨object, rfl, by simp only [sameFound]⟩)
  | none =>
    rw [found] at sameFound
    rcases effect with _ | ⟨cause, written⟩ | _
    · exact Or.inr (Or.inr ⟨rfl, by simp only [sameFound]⟩)
    · exact Or.inl ⟨cause, ⟨written, rfl⟩, rfl⟩
    · exact Or.inr (Or.inr ⟨rfl, by simp only [sameFound]⟩)

/-- A listing is noted, and takes nothing out. -/
theorem of_list_eq {outcome : Except StoreError (List ListedObject)}
    (answered : bucket.list = (outcome, after)) :
    after.objects = bucket.objects ∧ after.calls = bucket.calls ++ [(.list, "")] := by
  rcases list_cases bucket with ⟨_, _, listed⟩ | listed <;> rw [listed] at answered <;>
  rw [← (Prod.mk.inj answered).2] <;> exact ⟨rfl, rfl⟩

/-- A listing that succeeds tells of all objects. -/
theorem eq_of_list_ok {rows : List ListedObject} (answered : bucket.list = (.ok rows, after)) :
    rows = bucket.objects.map row := by
  rcases list_cases bucket with ⟨_, _, listed⟩ | listed <;> rw [listed] at answered <;>
  have outcome := (Prod.mk.inj answered).1
  · exact absurd outcome (by simp)
  · exact (Except.ok.inj outcome).symm

/-- A deletion that succeeds is noted, and takes out what stands under its key, but
no ghosts. -/
theorem of_delete_ok {removal : Removal} (once : (bucket.objects.map Prod.fst).Nodup)
    (answered : bucket.delete key = (.ok removal, after)) :
    after.objects = left [key] bucket.objects ∧
      after.calls = bucket.calls ++ [(.delete, key)] := by
  rcases delete_cases key bucket with ⟨_, _, deleted⟩ | ⟨object, found, deleted⟩ |
    ⟨absent, deleted⟩ <;> rw [deleted] at answered <;>
  obtain ⟨outcome, rfl⟩ := Prod.mk.inj answered
  · exact absurd outcome (by simp)
  · exact ⟨erase_objects once found, rfl⟩
  · exact ⟨(left_of_absent once absent).symm, rfl⟩

/-- A deletion that fails is noted, and takes nothing out. -/
theorem of_delete_error {cause : StoreError}
    (answered : bucket.delete key = (.error cause, after)) :
    after.objects = bucket.objects ∧ after.calls = bucket.calls ++ [(.delete, key)] := by
  rcases delete_cases key bucket with ⟨_, _, deleted⟩ | ⟨_, _, deleted⟩ | ⟨_, deleted⟩ <;>
  rw [deleted] at answered <;> obtain ⟨outcome, rfl⟩ := Prod.mk.inj answered
  · exact ⟨rfl, rfl⟩
  · exact absurd outcome (by simp)
  · exact absurd outcome (by simp)

/-! ## Calls that do not fail -/

/-- No listing and no deletion fails. -/
def Unfailing (bucket : Bucket) : Prop :=
  ∀ fault ∈ bucket.faults, fault.verb = .list ∨ fault.verb = .delete → ¬ fault.Fails

theorem unfailing_of_calm (calm : bucket.faults = []) : bucket.Unfailing := by
  intro fault member
  rw [calm] at member
  exact absurd member List.not_mem_nil

namespace Unfailing

variable {verb : Verb}

theorem noted (unfailing : bucket.Unfailing) (verb : Verb) (key : String) :
    (bucket.noted verb key).Unfailing :=
  fun fault member => unfailing fault (List.mem_of_mem_eraseP member)

private theorem not_refuses (unfailing : bucket.Unfailing) (tame : verb = .list ∨ verb = .delete)
    (key : String) (cause : FaultCause) : ¬ bucket.Refuses verb key cause := by
  rintro ⟨written, struck⟩
  obtain ⟨fault, found, sameEffect⟩ := Option.map_eq_some_iff.mp struck
  have isFor := List.find?_some found
  simp only [Fault.isFor, Bool.and_eq_true, beq_iff_eq] at isFor
  exact unfailing fault (List.mem_of_find?_eq_some found) (by rw [isFor.1]; exact tame)
    ⟨cause, written, sameEffect⟩

theorem list (unfailing : bucket.Unfailing) :
    bucket.list = (.ok (bucket.objects.map row), bucket.noted .list "") :=
  (list_cases bucket).resolve_left fun ⟨cause, refused, _⟩ =>
    unfailing.not_refuses (Or.inl rfl) "" cause refused

theorem delete (unfailing : bucket.Unfailing) (key : String) :
    (∃ removal, (bucket.delete key).1 = .ok removal) ∧ (bucket.delete key).2.Unfailing := by
  rcases delete_cases key bucket with ⟨cause, refused, _⟩ | ⟨_, _, deleted⟩ | ⟨_, deleted⟩
  · exact absurd refused (unfailing.not_refuses (Or.inr rfl) key cause)
  · rw [deleted]
    exact ⟨⟨_, rfl⟩, unfailing.noted .delete key⟩
  · rw [deleted]
    exact ⟨⟨_, rfl⟩, unfailing.noted .delete key⟩

end Unfailing

end ContentStore.Bucket
