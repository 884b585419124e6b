import ContentStore.Proofs.Bucket.Honest
import ContentStore.Proofs.Store.Calls

/-!
Contract: what was stored in an honest bucket stays there.

Owns:
- `Step.IsLawful`, the steps around a store over an honest bucket: others make
  of the folder what they like, and let calls fail;
- `Usage.Endangers`, the steps that may take an object away: its removal, and a
  deleting sweep whose session has not marked it;
- that the bucket is honest after every lawful run, and that what a put has
  stored is still held after every later run without such a step.

Does not own: whether a put succeeds.
-/

namespace ContentStore.Store

/-- Whether a step leaves it to the bucket to be honest. -/
def Step.IsLawful : Step Bucket → Prop
  | .elsewhere change => ∃ fault : Fault, fault.Fails ∧ change = fun bucket => bucket.addFault fault
  | _ => True

/-- An upload that succeeds leaves the fingerprint held, whatever the file. -/
theorem holds_upload {bucket : Bucket} (honest : bucket.Honest) {fingerprint : Fingerprint}
    {file : Except IoKind Bytes}
    (uploaded : (upload fingerprint file bucket).1 = .ok ()) :
    (upload fingerprint file bucket).2.Holds fingerprint := by
  obtain ⟨kept, same, present⟩ := honest.head fingerprint.text
  unfold upload at uploaded ⊢
  split at uploaded
  · exact absurd uploaded (by simp)
  · rename_i length after answered
    have asked : bucket.head fingerprint.text = (.ok (.present length), after) := answered
    rw [asked] at kept same present
    -- Nothing is stored: the object that the bucket has hashes to its key.
    obtain ⟨object, found⟩ := present length rfl
    refine ⟨kept, object, ?_⟩
    rw [Bucket.find?_of_objects same, found]
  · rename_i after answered
    have asked : bucket.head fingerprint.text = (.ok .absent, after) := answered
    rw [asked] at kept
    cases file with
    | error kind => exact absurd uploaded (by simp [Remote.putFile])
    | ok content =>
      -- The file need not be what was received, but it is stored under the name
      -- that the bucket gives back, and this name is compared.
      obtain ⟨stored, _, found⟩ := kept.put content
      split at uploaded
      · exact absurd uploaded (by simp)
      · rename_i name done answered
        have put : after.put content = (.ok name, done) := answered
        rw [put] at stored found
        split at uploaded
        · rename_i sameName
          simp only [if_pos sameName]
          rw [← sameName]
          exact ⟨stored, found name rfl⟩
        · exact absurd uploaded (by simp)

private theorem keptByCalls_honest : KeptByCalls Bucket.Honest where
  head := fun key _ honest => (honest.head key).1
  get := fun key _ honest => (honest.get key).1
  put := fun content _ honest => (honest.put content).1
  list := fun _ honest => honest.list

private theorem keptByCalls_holds (fingerprint : Fingerprint) :
    KeptByCalls fun bucket : Bucket => bucket.Holds fingerprint where
  head := by
    intro key bucket holds
    obtain ⟨honest, same, _⟩ := holds.toHonest.head key
    exact holds.of_objects honest same
  get := by
    intro key bucket holds
    obtain ⟨honest, same⟩ := holds.toHonest.get key
    exact holds.of_objects honest same
  put := fun content _ holds => holds.put content
  list := fun bucket holds => holds.of_objects holds.toHonest.list (Bucket.list_objects bucket)

/-! ## Steps and runs -/

namespace Usage

variable {usage : Usage Bucket} {fingerprint : Fingerprint}

/-- Whether a step may take away the object under a fingerprint. -/
def Endangers (fingerprint : Fingerprint) (usage : Usage Bucket) : Step Bucket → Prop
  | .act (.remove other) => other = fingerprint
  | .act (.stop true _) => usage.store.collector.phase = .marking ∧ fingerprint ∉ usage.marks
  | _ => False

/-- No step of a run may take away the object under a fingerprint. -/
def Spares (fingerprint : Fingerprint) : List (Step Bucket) → Usage Bucket → Prop
  | [], _ => True
  | taken :: rest, usage =>
    ¬ Endangers fingerprint usage taken ∧ Spares fingerprint rest (usage.step taken)

/-- What calls keep that delete nothing, every lawful step keeps, if further
faults, removals and sweeps do. -/
theorem step_preserves {Kept : Bucket → Prop} (calls : KeptByCalls Kept) {taken : Step Bucket}
    (lawful : taken.IsLawful)
    (faulting : ∀ fault : Fault, fault.Fails → Kept (usage.store.connection.addFault fault))
    (removing : ∀ other, taken = .act (.remove other) →
      Kept (usage.store.connection.delete other.text).2)
    (sweeping : ∀ delete elapsed, taken = .act (.stop delete elapsed) →
      Kept (usage.session.perform (.stop delete elapsed [])).connection)
    (kept : Kept usage.store.connection) : Kept (usage.step taken).store.connection := by
  cases taken with
  | act operation =>
    apply calls.perform operation _ _ kept
    · rintro other rfl
      exact removing other rfl
    · rintro delete elapsed rfl
      exact sweeping delete elapsed rfl
  | surround locked medium => exact kept
  | elsewhere change =>
    obtain ⟨fault, fails, rfl⟩ := lawful
    exact faulting fault fails
  | alter folder => exact kept
  | putWhile meanwhile reader =>
    simp only [step, take_connection]
    exact calls.putWhile meanwhile reader kept

private theorem honest_stop (honest : usage.store.connection.Honest) (delete : Bool)
    (elapsed : UInt64) : (usage.session.perform (.stop delete elapsed [])).connection.Honest := by
  by_cases marking : usage.session.collector.phase = .marking
  · rw [Collector.Session.perform_stop_of_marking marking]
    apply Collector.sweep_preserves Bucket.Honest
    · exact honest.list
    · exact fun _ _ _ object _ _ used kept => kept.delete object.key
  · rw [Collector.Session.perform_stop_of_refused marking]
    exact honest

/-- A stop keeps what its session has marked, and without `delete` everything. -/
theorem holds_stop (sound : usage.session.Sound) (delete : Bool) (elapsed : UInt64)
    (spared : delete = true → usage.session.collector.phase = .marking →
      fingerprint ∈ usage.marks)
    (holds : usage.store.connection.Holds fingerprint) :
    (usage.session.perform (.stop delete elapsed [])).connection.Holds fingerprint := by
  by_cases marking : usage.session.collector.phase = .marking
  · rw [Collector.Session.perform_stop_of_marking marking]
    apply Collector.sweep_preserves fun bucket : Bucket => bucket.Holds fingerprint
    · exact (keptByCalls_holds fingerprint).list _ holds
    · intro objects listed told object member notLive used kept
      apply kept.delete
      intro sameKey
      have live := (Collector.isLive_iff usage.session.collector.marked object).mpr
        ⟨fingerprint, (sound.marked marking fingerprint).mpr (spared told marking),
          Or.inl sameKey⟩
      rw [notLive] at live
      exact Bool.false_ne_true live
  · rw [Collector.Session.perform_stop_of_refused marking]
    exact holds

private theorem honest_step (honest : usage.store.connection.Honest) {taken : Step Bucket}
    (lawful : taken.IsLawful) : (usage.step taken).store.connection.Honest := by
  apply step_preserves keptByCalls_honest lawful _ _ _ honest
  · intro fault fails
    exact honest.addFault fails
  · intro other removal
    exact honest.delete other.text
  · intro delete elapsed stop
    exact honest_stop honest delete elapsed

private theorem holds_step (sound : usage.session.Sound) {taken : Step Bucket}
    (lawful : taken.IsLawful)
    (spared : ¬ Endangers fingerprint usage taken)
    (holds : usage.store.connection.Holds fingerprint) :
    (usage.step taken).store.connection.Holds fingerprint := by
  apply step_preserves (keptByCalls_holds fingerprint) lawful _ _ _ holds
  · intro fault fails
    exact holds.of_objects (holds.addFault fails) rfl
  · rintro other rfl
    apply holds.delete
    intro sameText
    exact spared (Fingerprint.ext_text sameText.symm)
  · rintro delete elapsed rfl
    apply holds_stop sound delete elapsed _ holds
    rintro rfl marking
    by_contra unmarked
    exact spared ⟨marking, unmarked⟩

private theorem honest_run (honest : usage.store.connection.Honest) {steps : List (Step Bucket)}
    (lawful : ∀ taken ∈ steps, taken.IsLawful) : (run steps usage).store.connection.Honest := by
  induction steps generalizing usage with
  | nil => exact honest
  | cons taken rest inductionHypothesis =>
    apply inductionHypothesis (honest_step honest (lawful taken List.mem_cons_self))
    intro later member
    exact lawful later (List.mem_cons_of_mem _ member)

private theorem holds_run (sound : usage.session.Sound) {steps : List (Step Bucket)}
    (lawful : ∀ taken ∈ steps, taken.IsLawful) (spared : Spares fingerprint steps usage)
    (holds : usage.store.connection.Holds fingerprint) :
    (run steps usage).store.connection.Holds fingerprint := by
  induction steps generalizing usage with
  | nil => exact holds
  | cons taken rest inductionHypothesis =>
    have lawfulStep := lawful taken List.mem_cons_self
    apply inductionHypothesis (sound_session_step sound taken) _ spared.2
    · exact holds_step sound lawfulStep spared.1 holds
    · intro later member
      exact lawful later (List.mem_cons_of_mem _ member)

/-- In an honest bucket whose calls answer the truth or fail, every object hashes
to its key after every run, whatever others make of the folder.  If a put then
gives a binary, even while others change the folder, an object that hashes to
its fingerprint is found under it after every later run, unless the fingerprint
was removed or a session that had not marked it ended with a deleting sweep. -/
theorem put_is_durable (repository : String) (budget : Nat) (bucket : Bucket)
    (honest : bucket.Honest) (history : List (Step Bucket))
    (lawful : ∀ taken ∈ history, taken.IsLawful) (usage : Usage Bucket)
    (reached : run history (first repository budget bucket) = usage) :
    (∀ stored ∈ usage.store.connection.objects,
      (Fingerprint.ofContent stored.2.content).text = stored.1) ∧
    ∀ meanwhile reader binary, (usage.store.putWhile meanwhile reader).1 = .ok binary →
      ∀ later, (∀ taken ∈ later, taken.IsLawful) →
        Spares binary.fingerprint later (usage.step (.putWhile meanwhile reader)) →
        ∃ object,
          (run later (usage.step (.putWhile meanwhile reader))).store.connection.find?
            binary.fingerprint.text = some object ∧
          Fingerprint.ofContent object.content = binary.fingerprint := by
  have sound : usage.session.Sound := by
    rw [← reached]
    apply sound_session_run
    exact Collector.Session.sound_first bucket
  have honestNow : usage.store.connection.Honest := by
    rw [← reached]
    exact honest_run honest lawful
  refine ⟨honestNow.hashed, ?_⟩
  intro meanwhile reader binary given later lawfulLater spared
  have held : (usage.step (.putWhile meanwhile reader)).store.connection.Holds
      binary.fingerprint := by
    simp only [step, take_connection]
    rcases putWhile_cases usage.store meanwhile reader with
      ⟨cause, failed, _⟩ | ⟨fingerprint, file, uploaded, named⟩
    · rw [failed] at given
      exact absurd given (by simp)
    · obtain ⟨rfl, succeeded⟩ := named binary given
      rw [uploaded]
      exact holds_upload honestNow succeeded
  have soundNow := sound_session_step sound (.putWhile meanwhile reader)
  exact (holds_run soundNow lawfulLater spared held).exists_content

/-! ### A put before the folder is lost and the bucket is swept -/

/-- A bucket whose first upload will fail, with an object that nobody marks. -/
def unsweptBucket : Bucket :=
  ((Bucket.empty "").insert (Fingerprint.ofContent [2]).text (Bucket.objectOf [2])).addFault
    ⟨.put, none, .failure (.uploadFailed 403) []⟩

def failedPut : List (Step Bucket) :=
  [.act (.put (Reader.ofContent [1]))]

/-- The binary that the next put gives, of a file that the first one cached. -/
def secondPut : Binary :=
  ⟨⟨0, Fingerprint.ofContent [1], 1⟩, Fingerprint.ofContent [1], ""⟩

/-- The folder is emptied, and a session that marks one fingerprint ends with a
deleting sweep. -/
def lossAndSweep : List (Step Bucket) :=
  [.alter Folder.empty, .act .start, .act (.mark secondPut.fingerprint),
    .act (.remove (Fingerprint.ofContent [3])), .act (.stop true 0)]

/-- What the second put has stored is there afterwards, though the folder was
lost, and the other object is gone. -/
theorem stored_content_survives :
    (run lossAndSweep ((run failedPut (first "" 9 unsweptBucket)).step
        (.putWhile (fun folder => folder) (Reader.ofContent [1])))).store.connection.find?
          (Fingerprint.ofContent [2]).text = none ∧
      ∃ object,
        (run lossAndSweep ((run failedPut (first "" 9 unsweptBucket)).step
          (.putWhile (fun folder => folder) (Reader.ofContent [1])))).store.connection.find?
            secondPut.fingerprint.text = some object ∧
          Fingerprint.ofContent object.content = secondPut.fingerprint := by
  have honest : unsweptBucket.Honest := by
    apply Bucket.Honest.addFault
    · exact (Bucket.honest_empty "").insert [2]
    · exact ⟨_, _, rfl⟩
  have lawful : ∀ taken ∈ failedPut, taken.IsLawful := by
    simp [failedPut, Step.IsLawful]
  have lawfulLater : ∀ taken ∈ lossAndSweep, taken.IsLawful := by
    simp [lossAndSweep, Step.IsLawful]
  have given : ((run failedPut (first "" 9 unsweptBucket)).store.putWhile
      (fun folder => folder) (Reader.ofContent [1])).1 = .ok secondPut := by
    decide +kernel
  have spared : Spares secondPut.fingerprint lossAndSweep
      ((run failedPut (first "" 9 unsweptBucket)).step
        (.putWhile (fun folder => folder) (Reader.ofContent [1]))) := by
    refine ⟨id, id, id, ?_, ?_, trivial⟩
    · show ¬ Fingerprint.ofContent [3] = secondPut.fingerprint
      decide +kernel
    · rintro ⟨_, unmarked⟩
      exact unmarked (by decide +kernel)
  refine ⟨by decide +kernel, ?_⟩
  have durable := (put_is_durable "" 9 unsweptBucket honest failedPut lawful _ rfl).2
  exact durable _ _ secondPut given lossAndSweep lawfulLater spared

end Usage

end ContentStore.Store
