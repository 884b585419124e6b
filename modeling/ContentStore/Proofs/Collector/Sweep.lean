import ContentStore.Collector
import ContentStore.Proofs.Fingerprint

/-!
Contract: what a sweep does to the remote.

Owns:
- `isLive_iff`, by which an object is live exactly if its key or its entity tag
  is the text of a marked fingerprint;
- `sweep_preserves`, by which a sweep keeps whatever the listing and the
  deletion of listed objects that are not live keep;
- `exists_deletions`, by which a sweep is a listing and then deletions of listed
  objects that are not live;
- `Recorded`, a remote that notes what it is asked to list and to delete, and
  answers as another remote does;
- `sweep_log`, by which a sweep deletes nothing but listed objects that are not
  live.

Does not own: which fingerprints are marked.
-/

namespace ContentStore

namespace Collector

variable {Connection : Type} [Remote Connection]

/-- An object is live exactly if its key or its entity tag is marked. -/
theorem isLive_iff (marked : List Fingerprint) (object : ListedObject) :
    isLive marked object = true ↔
      ∃ fingerprint ∈ marked, fingerprint.text = object.key ∨ fingerprint.text = object.etag := by
  unfold isLive ListedObject.fingerprint?
  simp only [Bool.or_eq_true, Option.any_eq_true, List.contains_iff_mem,
    Fingerprint.ofText?_eq_some_iff]
  constructor
  · rintro (⟨fingerprint, named, member⟩ | ⟨fingerprint, named, member⟩)
    · exact ⟨fingerprint, member, Or.inl named⟩
    · exact ⟨fingerprint, member, Or.inr named⟩
  · rintro ⟨fingerprint, member, named | named⟩
    · exact Or.inl ⟨fingerprint, named, member⟩
    · exact Or.inr ⟨fingerprint, named, member⟩

/-! ## What a sweep keeps -/

/-- What deleting any listed object keeps that is not live, sweeping the listed
objects keeps, and without `delete` it keeps everything. -/
theorem sweepObjects_preserves (Kept : Connection → Prop) (marked : List Fingerprint)
    (delete : Bool) (objects : List ListedObject)
    (deleting : delete = true → ∀ object ∈ objects, isLive marked object = false →
      ∀ connection, Kept connection → Kept (Remote.delete object.key connection).2)
    (tally : Tally) (connection : Connection) (holds : Kept connection) :
    Kept (sweepObjects marked delete objects tally connection).2 := by
  induction objects generalizing tally connection with
  | nil => exact holds
  | cons object rest inductionHypothesis =>
    have later := inductionHypothesis fun told other member =>
      deleting told other (List.mem_cons_of_mem _ member)
    unfold sweepObjects
    split
    · split
      · exact holds
      · exact later _ _ holds
    · rename_i notLive
      split
      · exact holds
      · split
        · rename_i told
          have afterDeletion := deleting told object List.mem_cons_self
            (Bool.eq_false_iff.mpr notLive) connection holds
          split
          · rename_i removal after deleted
            rw [deleted] at afterDeletion
            exact later _ _ afterDeletion
          · rename_i cause after deleted
            rw [deleted] at afterDeletion
            exact afterDeletion
        · exact later _ _ holds

/-- What the listing keeps, and after it the deletion of any listed object that
is not live, a sweep keeps. -/
theorem sweep_preserves (Kept : Connection → Prop) (marked : List Fingerprint) (delete : Bool)
    (connection : Connection) (listing : Kept (Remote.list connection).2)
    (deleting : ∀ objects, (Remote.list connection).1 = .ok objects → delete = true →
      ∀ object ∈ objects, isLive marked object = false →
        ∀ used, Kept used → Kept (Remote.delete object.key used).2) :
    Kept (sweep marked delete connection).2 := by
  unfold sweep
  split
  · rename_i objects after listed
    rw [listed] at listing deleting
    exact sweepObjects_preserves Kept marked delete objects (deleting objects rfl) _ _ listing
  · rename_i cause after listed
    rw [listed] at listing
    exact listing

/-- What a sweep leaves is what a listing leaves, and then deletions of listed
objects that are not live. -/
theorem exists_deletions (marked : List Fingerprint) (delete : Bool) (connection : Connection) :
    ∃ keys : List String,
      (sweep marked delete connection).2 =
        keys.foldl (fun used key => (Remote.delete key used).2) (Remote.list connection).2 ∧
      ∀ key ∈ keys, delete = true ∧
        ∃ objects, (Remote.list connection).1 = .ok objects ∧
          ∃ object ∈ objects, object.key = key ∧ isLive marked object = false := by
  apply sweep_preserves fun used => ∃ keys : List String,
    used = keys.foldl (fun used key => (Remote.delete key used).2) (Remote.list connection).2 ∧
      ∀ key ∈ keys, delete = true ∧
        ∃ objects, (Remote.list connection).1 = .ok objects ∧
          ∃ object ∈ objects, object.key = key ∧ isLive marked object = false
  · exact ⟨[], rfl, by simp⟩
  · rintro objects listed told object member notLive used ⟨keys, rfl, lawful⟩
    refine ⟨keys ++ [object.key], by rw [List.foldl_append]; rfl, fun key among => ?_⟩
    rcases List.mem_append.mp among with before | last
    · exact lawful key before
    · rw [List.mem_singleton] at last
      exact ⟨told, objects, listed, object, member, last.symm, notLive⟩

end Collector

/-! ## A remote that takes notes -/

/-- What a remote was asked for, and what it answered. -/
inductive Exchange where
  | listed (outcome : Except StoreError (List ListedObject))
  | deleted (key : String) (outcome : Except StoreError Removal)

/-- A remote that answers as another one does, and notes what it is asked to
list and to delete. -/
structure Recorded (Connection : Type) where
  connection : Connection
  /-- What was asked for, earliest first. -/
  log : List Exchange

namespace Recorded

variable {Connection : Type} [Remote Connection]

/-- List through the remote, and note it. -/
def list (recorded : Recorded Connection) :
    Except StoreError (List ListedObject) × Recorded Connection :=
  let (outcome, after) := Remote.list recorded.connection
  (outcome, ⟨after, recorded.log ++ [.listed outcome]⟩)

/-- Delete through the remote, and note it. -/
def delete (key : String) (recorded : Recorded Connection) :
    Except StoreError Removal × Recorded Connection :=
  let (outcome, after) := Remote.delete key recorded.connection
  (outcome, ⟨after, recorded.log ++ [.deleted key outcome]⟩)

instance : Remote (Recorded Connection) where
  bucket recorded := Remote.bucket recorded.connection
  head key recorded :=
    let (outcome, after) := Remote.head key recorded.connection
    (outcome, { recorded with connection := after })
  get key recorded :=
    let (outcome, after) := Remote.get key recorded.connection
    (outcome, { recorded with connection := after })
  put content recorded :=
    let (outcome, after) := Remote.put content recorded.connection
    (outcome, { recorded with connection := after })
  delete := Recorded.delete
  list := Recorded.list

end Recorded

namespace Collector

variable {Connection : Type} [Remote Connection]

/-- A deletion of a listed object that is not live, by a sweep that was told to
delete. -/
def DeletesDead (marked : List Fingerprint) (delete : Bool)
    (listing : Except StoreError (List ListedObject)) (event : Exchange) : Prop :=
  delete = true ∧ ∃ objects object outcome, listing = .ok objects ∧ object ∈ objects ∧
    isLive marked object = false ∧ event = .deleted object.key outcome

/-- A sweep lists once, and after that deletes only if it is told to, and only
the keys of listed objects that are not live. -/
theorem sweep_log (marked : List Fingerprint) (delete : Bool)
    (recorded : Recorded Connection) :
    ∃ deletions,
      (sweep marked delete recorded).2.log =
        recorded.log ++ .listed (Remote.list recorded.connection).1 :: deletions ∧
      ∀ event ∈ deletions,
        DeletesDead marked delete (Remote.list recorded.connection).1 event := by
  apply sweep_preserves fun used : Recorded Connection => ∃ deletions,
    used.log = recorded.log ++ .listed (Remote.list recorded.connection).1 :: deletions ∧
      ∀ event ∈ deletions, DeletesDead marked delete (Remote.list recorded.connection).1 event
  · exact ⟨[], rfl, by simp⟩
  · rintro objects listed told object member notLive used ⟨deletions, grown, lawful⟩
    refine ⟨deletions ++ [.deleted object.key (Remote.delete object.key used.connection).1],
      ?_, ?_⟩
    · show used.log ++ _ = _
      rw [grown, List.append_assoc]
      rfl
    · intro event among
      rcases List.mem_append.mp among with before | last
      · exact lawful event before
      · rw [List.mem_singleton] at last
        exact ⟨told, objects, object, _, listed, member, notLive, last⟩

end Collector

end ContentStore
