import ContentStore.Proofs.Bucket
import ContentStore.Proofs.Collector.Session

/-!
Contract: a collector spares what was marked.

Owns:
- what a stop notes on a remote that takes notes: nothing if it is refused, and
  otherwise a listing and then deletions of objects that are not live;
- that the keys which a stop deletes are those of listed objects, and that
  neither they nor the entity tags of these objects were marked;
- that a bucket in which each key stands once still has every object whose key
  or entity tag was marked.

Does not own: what a stop counts.
-/

namespace ContentStore.Collector.Session

open Fingerprint (repeated)

variable {Connection : Type} [Remote Connection]

/-- What a stop notes: deletions of listed objects, neither whose keys nor whose
entity tags were marked, and these only if it was told to delete. -/
theorem Sound.log_stop {session : Session (Recorded Connection)} (sound : session.Sound)
    (delete : Bool) (elapsed : UInt64) (meanwhile : List Call) :
    ∃ events,
      (session.perform (.stop delete elapsed meanwhile)).connection.log =
        session.connection.log ++ events ∧
      ∀ key outcome, .deleted key outcome ∈ events → delete = true ∧
        (∀ fingerprint ∈ session.marks, fingerprint.text ≠ key) ∧
        ∃ objects, .listed (.ok objects) ∈ events ∧ ∃ object ∈ objects, object.key = key ∧
          ∀ fingerprint ∈ session.marks, fingerprint.text ≠ object.etag := by
  by_cases marking : session.collector.phase = .marking
  · obtain ⟨deletions, grown, lawful⟩ :=
      sweep_log session.collector.marked delete session.connection
    rw [perform_stop_of_marking marking]
    refine ⟨_, grown, ?_⟩
    intro key outcome among
    rcases List.mem_cons.mp among with listing | deletion
    · exact absurd listing (by simp)
    · obtain ⟨told, objects, object, _, listed, member, notLive, same⟩ := lawful _ deletion
      obtain ⟨rfl, _⟩ := Exchange.deleted.inj same
      have dead (fingerprint : Fingerprint) (marked : fingerprint ∈ session.marks) :
          ¬ (fingerprint.text = object.key ∨ fingerprint.text = object.etag) := by
        intro named
        have live := (isLive_iff session.collector.marked object).mpr
          ⟨fingerprint, (sound.marked marking fingerprint).mpr marked, named⟩
        rw [notLive] at live
        exact Bool.false_ne_true live
      refine ⟨told, fun fingerprint marked same => dead fingerprint marked (Or.inl same), ?_⟩
      refine ⟨objects, ?_, object, member, rfl,
        fun fingerprint marked same => dead fingerprint marked (Or.inr same)⟩
      rw [listed]
      exact List.mem_cons_self
  · rw [perform_stop_of_refused marking]
    exact ⟨[], (List.append_nil _).symm, by simp⟩

private theorem marks_stop (session : Session Connection) (delete : Bool) (elapsed : UInt64)
    (meanwhile : List Call) :
    (session.perform (.stop delete elapsed meanwhile)).marks = session.marks := by
  by_cases marking : session.collector.phase = .marking
  · rw [perform_stop_of_marking marking]
  · rw [perform_stop_of_refused marking]

/-- A stop leaves every object in a bucket whose key or entity tag was marked,
if each key stands in the bucket once. -/
theorem Sound.listed?_stop {session : Session Bucket} (sound : session.Sound) (delete : Bool)
    (elapsed : UInt64) (meanwhile : List Call) {key : String} {object : StoredObject}
    (once : (session.connection.objects.map Prod.fst).Nodup)
    (listed : session.connection.listed? key = some object)
    (marked : ∃ fingerprint ∈ session.marks,
      fingerprint.text = key ∨ fingerprint.text = object.etag) :
    (session.perform (.stop delete elapsed meanwhile)).connection.listed? key = some object := by
  by_cases marking : session.collector.phase = .marking
  · rw [perform_stop_of_marking marking]
    apply sweep_preserves fun used : Bucket => used.listed? key = some object
    · show session.connection.list.2.listed? key = some object
      unfold Bucket.listed?
      rw [Bucket.list_objects]
      exact listed
    · intro objects answered told other member notLive used still
      show (used.delete other.key).2.listed? key = some object
      rw [Bucket.listed?_delete_of_ne, still]
      -- An object listed under the same key would be this one, which is live.
      intro sameKey
      obtain ⟨stored, present, sameTag⟩ := Bucket.mem_of_list answered member
      rw [← sameKey] at present
      have same := (Bucket.listed?_eq_some_of_mem once present).symm.trans listed
      obtain ⟨fingerprint, inSession, named⟩ := marked
      have live := (isLive_iff session.collector.marked other).mpr
        ⟨fingerprint, (sound.marked marking fingerprint).mpr inSession, by
          rw [← sameKey, sameTag, Option.some.inj same]
          exact named⟩
      rw [notLive] at live
      exact Bool.false_ne_true live
  · rw [perform_stop_of_refused marking]
    exact listed

/-- Whatever was called before, and whatever is called while the bucket is being
listed, a stop deletes only if it is told to, and no key that was marked in its
session, to which the calls made meanwhile add nothing; and each key that it
deletes is the key of a listed object whose entity tag was not marked either.
In a bucket in which each key stands once, every object whose key or entity tag
was marked is still there afterwards. -/
theorem stop_spares_marked :
    (∀ {Connection : Type} [Remote Connection] (connection : Recorded Connection)
      (history : List (Step (Recorded Connection))) (delete : Bool) (elapsed : UInt64)
      (meanwhile : List Call),
      ((run history (first connection)).perform (.stop delete elapsed meanwhile)).marks =
        (run history (first connection)).marks ∧
      ∃ events,
        ((run history (first connection)).perform (.stop delete elapsed meanwhile)).connection.log =
          (run history (first connection)).connection.log ++ events ∧
        ∀ key outcome, .deleted key outcome ∈ events →
          delete = true ∧
          (∀ fingerprint ∈ (run history (first connection)).marks, fingerprint.text ≠ key) ∧
          ∃ objects, .listed (.ok objects) ∈ events ∧
            ∃ object ∈ objects, object.key = key ∧
              ∀ fingerprint ∈ (run history (first connection)).marks,
                fingerprint.text ≠ object.etag) ∧
    ∀ (bucket : Bucket) (history : List (Step Bucket)) (delete : Bool) (elapsed : UInt64)
      (meanwhile : List Call) (key : String) (object : StoredObject),
      ((run history (first bucket)).connection.objects.map Prod.fst).Nodup →
      (run history (first bucket)).connection.listed? key = some object →
      (∃ fingerprint ∈ (run history (first bucket)).marks,
        fingerprint.text = key ∨ fingerprint.text = object.etag) →
      ((run history (first bucket)).perform
          (.stop delete elapsed meanwhile)).connection.listed? key = some object := by
  constructor
  · intro Connection _ connection history delete elapsed meanwhile
    refine ⟨marks_stop _ delete elapsed meanwhile, ?_⟩
    exact ((sound_first connection).run history).log_stop delete elapsed meanwhile
  · intro bucket history delete elapsed meanwhile key object once listed marked
    exact ((sound_first bucket).run history).listed?_stop delete elapsed meanwhile once listed
      marked

/-! ### An object of either kind, and one that is not marked -/

/-- Two objects that are marked below, one by its key and one by its entity tag,
and one that is not. -/
def threeObjects : Bucket :=
  ⟨"", [((repeated 1).text, ⟨[1], "", 1, false⟩), ((repeated 3).text, ⟨[3], "", 1, false⟩),
    ("photograph", ⟨[2], (repeated 2).text, 1, false⟩)], [], []⟩

def twoMarks {Connection : Type} : List (Step Connection) :=
  [.call .start, .call (.mark (repeated 1)), .call (.mark (repeated 2))]

deriving instance DecidableEq for Exchange

/-- A stop deletes the one object that is not marked, though it is marked while
the bucket is being listed, and leaves the others. -/
theorem marked_objects_survive :
    .deleted (repeated 3).text (.ok .deleted) ∈
        ((run twoMarks (first (⟨threeObjects, []⟩ : Recorded Bucket))).perform
          (.stop true 1 [.mark (repeated 3), .stop true 0 []])).connection.log ∧
      (∀ fingerprint ∈ (run twoMarks (first (⟨threeObjects, []⟩ : Recorded Bucket))).marks,
        fingerprint.text ≠ (repeated 3).text) ∧
      ((run twoMarks (first threeObjects)).perform
          (.stop true 1 [.mark (repeated 3), .stop true 0 []])).connection.listed? "photograph" =
        some ⟨[2], (repeated 2).text, 1, false⟩ := by
  have deleted : .deleted (repeated 3).text (.ok .deleted) ∈
      ((run twoMarks (first (⟨threeObjects, []⟩ : Recorded Bucket))).perform
        (.stop true 1 [.mark (repeated 3), .stop true 0 []])).connection.log := by
    decide +kernel
  refine ⟨deleted, ?_, ?_⟩
  · obtain ⟨_, events, grown, lawful⟩ := stop_spares_marked.1
      (⟨threeObjects, []⟩ : Recorded Bucket) twoMarks true 1 [.mark (repeated 3), .stop true 0 []]
    have started : (run twoMarks (first (⟨threeObjects, []⟩ : Recorded Bucket))).connection.log =
        [] := by
      decide +kernel
    rw [grown, started, List.nil_append] at deleted
    exact (lawful _ _ deleted).2.1
  · exact stop_spares_marked.2 threeObjects twoMarks true 1 [.mark (repeated 3), .stop true 0 []]
      "photograph" ⟨[2], (repeated 2).text, 1, false⟩ (by decide +kernel) (by decide +kernel)
      (by decide +kernel)

end ContentStore.Collector.Session
