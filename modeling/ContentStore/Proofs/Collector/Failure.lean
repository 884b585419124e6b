import ContentStore.Proofs.Collector.Filter

/-!
Contract: a sweep that fails, and the session after it.

Owns:
- `Stumbles`, by which the deletion of an object fails after those of all objects
  in front of it that are not live;
- that a sweep which stumbles stops there, and what it leaves;
- that a sweep fails only because the listing fails, or because it stumbles;
- that in either case a session with the same marks in which no call fails leaves
  what an undisturbed one would have left.

Does not own: what a failed call costs a remote that is no bucket in memory.
-/

namespace ContentStore.Collector

open Bucket (row)
open ListedObject (totalSize)
open Fingerprint (repeated)

variable {marks again : List Fingerprint} {bucket after : Bucket}
  {entry : String × StoredObject} {objects front back : List (String × StoredObject)}
  {cause : StoreError}

private theorem deadKeys_append_cons (dead : ¬ Live marks entry)
    (front back : List (String × StoredObject)) :
    deadKeys marks (front ++ entry :: back) =
      deadKeys marks front ++ entry.1 :: deadKeys marks back := by
  simp only [deadKeys, List.filter_append, List.filter_cons, decide_eq_true dead, if_true,
    List.map_append, List.map_cons]

/-- Each key that is to be deleted is that of an object, which stands behind those
of the keys in front of it. -/
theorem exists_of_deadKeys_eq {key : String} {before behind : List String}
    (split : deadKeys marks objects = before ++ key :: behind) :
    ∃ front entry back, objects = front ++ entry :: back ∧ ¬ Live marks entry ∧
      entry.1 = key ∧ deadKeys marks front = before := by
  obtain ⟨deadFront, deadRest, filtered, mappedFront, mappedRest⟩ := List.map_eq_append_iff.mp split
  obtain ⟨entry, deadBack, rfl, sameKey, _⟩ := List.map_eq_cons_iff.mp mappedRest
  obtain ⟨front, rest, rfl, filteredFront, filteredRest⟩ := List.filter_eq_append_iff.mp filtered
  obtain ⟨skipped, back, rfl, allLive, dead, _⟩ := List.filter_eq_cons_iff.mp filteredRest
  refine ⟨front ++ skipped, entry, back, by simp, of_decide_eq_true dead, sameKey, ?_⟩
  have noneSkipped : skipped.filter (¬ Live marks ·) = [] := List.filter_eq_nil_iff.mpr allLive
  rw [deadKeys, List.filter_append, noneSkipped, List.append_nil, filteredFront, mappedFront]

/-! ## Where a sweep fails -/

/-- The listing succeeds, and so do the deletions of the objects in front that are
not live, in their order; then the deletion of the next one fails. -/
structure Stumbles (marks : List Fingerprint) (bucket : Bucket)
    (front : List (String × StoredObject)) (entry : String × StoredObject)
    (back : List (String × StoredObject)) (cause : StoreError) (after : Bucket) : Prop where
  split : bucket.objects = front ++ entry :: back
  dead : ¬ Live marks entry
  failing : ∃ rows listed reached, bucket.list = (.ok rows, listed) ∧
    deleteAll (deadKeys marks front) listed = (.ok (), reached) ∧
    reached.delete entry.1 = (.error cause, after)

/-- A sweep ends where it stumbles. -/
theorem Stumbles.sweep_eq (stumbles : Stumbles marks bucket front entry back cause after)
    (bounded : totalSize (bucket.objects.map row) < 2 ^ 64) :
    sweep marks true bucket = (.error (.failure cause), after) := by
  obtain ⟨rows, listed, reached, answered, done, refused⟩ := stumbles.failing
  have failed : deleteAll (deadKeys marks bucket.objects) listed = (.error cause, after) := by
    rw [stumbles.split, deadKeys_append_cons stumbles.dead, deleteAll_append done]
    exact deleteAll_cons_of_error refused _
  rw [sweep_of_answered answered bounded, if_pos rfl, failed]
  rfl

/-- A sweep that stumbles has taken out the objects in front that are not live, but
no ghosts, and nothing else; and the deletion that failed was its last call. -/
theorem Stumbles.leaves (stumbles : Stumbles marks bucket front entry back cause after)
    (once : (bucket.objects.map Prod.fst).Nodup) :
    after.objects = kept marks front ++ entry :: back ∧
      after.calls = bucket.calls ++ (.list, "") ::
        (deadKeys marks front ++ [entry.1]).map fun key => (.delete, key) := by
  obtain ⟨rows, listed, reached, answered, done, refused⟩ := stumbles.failing
  obtain ⟨listedObjects, listedCalls⟩ := Bucket.of_list_eq answered
  obtain ⟨leftReached, notedReached⟩ :=
    deleteAll_ok (by rw [listedObjects]; exact once) done
  obtain ⟨unchanged, noted⟩ := Bucket.of_delete_error refused
  rw [listedObjects, stumbles.split,
    left_deadKeys_append marks front (entry :: back) (by rw [← stumbles.split]; exact once)]
    at leftReached
  rw [unchanged, noted, leftReached, notedReached, listedCalls]
  simp

/-- A sweep that deletes is not given up, and fails only because its listing fails, or
because it stumbles. -/
theorem of_sweep_error {interruption : Interruption StoreError}
    (bounded : totalSize (bucket.objects.map row) < 2 ^ 64)
    (ended : sweep marks true bucket = (.error interruption, after)) :
    ∃ cause, interruption = .failure cause ∧ (bucket.list = (.error cause, after) ∨
      ∃ front entry back, Stumbles marks bucket front entry back cause after) := by
  rcases answered : bucket.list with ⟨cause | rows, listed⟩
  · rw [sweep_of_refused answered] at ended
    obtain ⟨same, sameAfter⟩ := Prod.mk.inj ended
    exact ⟨cause, (Except.error.inj same).symm, Or.inl (by rw [sameAfter])⟩
  · rw [sweep_of_answered answered bounded, if_pos rfl] at ended
    rcases deleted : deleteAll (deadKeys marks bucket.objects) listed with
      ⟨cause | _, last⟩ <;> rw [deleted] at ended <;>
      obtain ⟨same, rfl⟩ := Prod.mk.inj ended
    · obtain ⟨before, key, behind, reached, split, done, refused⟩ :=
        exists_of_deleteAll_error deleted
      obtain ⟨front, entry, back, splitObjects, dead, rfl, rfl⟩ := exists_of_deadKeys_eq split
      exact ⟨cause, (Except.error.inj same).symm, Or.inr ⟨front, entry, back, splitObjects, dead,
        rows, listed, reached, answered, done, refused⟩⟩
    · exact nomatch same

/-- A sweep that fails leaves all that an undisturbed one would have left, and
nothing that was not there. -/
theorem kept_of_sweep_error {interruption : Interruption StoreError}
    (once : (bucket.objects.map Prod.fst).Nodup)
    (bounded : totalSize (bucket.objects.map row) < 2 ^ 64)
    (ended : sweep marks true bucket = (.error interruption, after)) :
    after.objects.Sublist bucket.objects ∧
      kept marks after.objects = kept marks bucket.objects := by
  obtain ⟨cause, _, refused | ⟨front, entry, back, stumbles⟩⟩ := of_sweep_error bounded ended
  · rw [(Bucket.of_list_eq refused).1]
    exact ⟨List.Sublist.refl _, rfl⟩
  · rw [(stumbles.leaves once).1, stumbles.split]
    refine ⟨List.filter_sublist.append (List.Sublist.refl _), ?_⟩
    simp only [kept, List.filter_append, List.filter_filter, Bool.and_self]

/-! ## The session after it -/

/-- A session ends early with its sweep, and leaves an idle collector without marks
and without counts if that has failed. -/
theorem collect_eq_failure_iff {collector ended : Collector} (idle : collector.phase = .idle)
    {delete : Bool} {elapsed : UInt64} :
    collect marks delete elapsed collector bucket = (.error (.failure cause), ended, after) ↔
      sweep marks delete bucket = (.error (.failure cause), after) ∧ ended = Collector.idle := by
  rw [collect_of_idle idle]
  rcases sweep marks delete bucket with ⟨(reason | _) | tally, last⟩
  · simp only [Except.map, endSweep, Prod.mk.injEq, Except.error.injEq,
      Interruption.failure.injEq]
    constructor
    · rintro ⟨rfl, rfl, rfl⟩
      exact ⟨⟨rfl, rfl⟩, rfl⟩
    · rintro ⟨⟨rfl, rfl⟩, rfl⟩
      exact ⟨rfl, rfl, rfl⟩
  · simp [Except.map]
  · simp [Except.map]

/-- A session is interrupted by what interrupts its sweep. -/
theorem sweep_of_collect_error {collector ended : Collector} {delete : Bool} {elapsed : UInt64}
    {interruption : Interruption StoreError} (idle : collector.phase = .idle)
    (ending : collect marks delete elapsed collector bucket = (.error interruption, ended, after)) :
    sweep marks delete bucket = (.error interruption, after) := by
  rw [collect_of_idle idle] at ending
  rcases swept : sweep marks delete bucket with ⟨reason | tally, last⟩ <;> rw [swept] at ending <;>
    obtain ⟨same, rest⟩ := Prod.mk.inj ending
  · exact Prod.ext same (Prod.mk.inj rest).2
  · exact absurd same (by simp [Except.map])

/-- A session that deletes, and succeeds, leaves what an undisturbed one leaves. -/
theorem objects_of_collect_ok {collector ended : Collector} {tally : Tally} {elapsed : UInt64}
    (idle : collector.phase = .idle) (once : (bucket.objects.map Prod.fst).Nodup)
    (bounded : totalSize (bucket.objects.map row) < 2 ^ 64)
    (collected : collect marks true elapsed collector bucket = (.ok tally, ended, after)) :
    after.objects = kept marks bucket.objects := by
  rw [collect_of_idle idle] at collected
  obtain ⟨succeeded, rest⟩ := Prod.mk.inj collected
  rcases swept : sweep marks true bucket with ⟨reason | counted, last⟩
  · rw [swept] at succeeded
    exact absurd succeeded (by simp [Except.map])
  · have same : last = after := by
      rw [← (Prod.mk.inj rest).2, swept]
    rw [← same]
    exact (of_sweep_ok once bounded swept).2.1

private theorem objects_of_undisturbed {collector : Collector} (idle : collector.phase = .idle)
    (once : (bucket.objects.map Prod.fst).Nodup)
    (bounded : totalSize (bucket.objects.map row) < 2 ^ 64) (marks : List Fingerprint)
    (elapsed : UInt64) :
    (collect marks true elapsed collector { bucket with faults := [] }).2.2.objects =
      kept marks bucket.objects := by
  have calm : ({ bucket with faults := [] } : Bucket).Unfailing := Bucket.unfailing_of_calm rfl
  obtain ⟨after, collected, leftOver, _⟩ :=
    collect_of_unfailing idle calm once bounded marks true elapsed
  rw [collected]
  exact leftOver

/-- Let a bucket list each key once, with sizes whose sum fits into a word.  A session
that deletes ends with the error of its listing, having deleted nothing, if the
listing fails.  If the deletion of an object fails after those of all objects in front
of it that are not live, the session ends with that error and makes no further call,
and what it has taken out is the objects in front that are not live.  A session ends
early for no other reason.  The collector is idle then, without marks and with all
counters zero; and after that, a session with the same marks in which no call fails
leaves the same objects as one that had not been disturbed.  No call fails if neither
the listing nor a deletion runs into a fault by now. -/
theorem failed_sweep_can_be_repeated (marks : List Fingerprint) (collector : Collector)
    (idle : collector.phase = .idle) (bucket : Bucket)
    (once : (bucket.objects.map Prod.fst).Nodup)
    (bounded : totalSize (bucket.objects.map row) < 2 ^ 64) (elapsed : UInt64) :
    (∀ cause after, bucket.list = (.error cause, after) →
      collect marks true elapsed collector bucket =
        (.error (.failure cause), Collector.idle, after) ∧
      after.objects = bucket.objects ∧ after.calls = bucket.calls ++ [(.list, "")]) ∧
    (∀ front entry back cause after, Stumbles marks bucket front entry back cause after →
      collect marks true elapsed collector bucket =
        (.error (.failure cause), Collector.idle, after) ∧
      after.objects =
        front.filter (fun other => Live marks other ∨ other.2.isGhost) ++ entry :: back ∧
      after.calls = bucket.calls ++ (.list, "") ::
        (front.filter (¬ Live marks ·)).map (fun other => (.delete, other.1)) ++
        [(.delete, entry.1)]) ∧
    ∀ interruption ended after,
      collect marks true elapsed collector bucket = (.error interruption, ended, after) →
      ended = ⟨.idle, [], Tally.zero⟩ ∧
      (∃ cause, interruption = .failure cause ∧ (bucket.list = (.error cause, after) ∨
        ∃ front entry back, Stumbles marks bucket front entry back cause after)) ∧
      ∀ again, (∀ fingerprint, fingerprint ∈ again ↔ fingerprint ∈ marks) →
        ∀ mended : Bucket, mended.objects = after.objects → ∀ later,
          (∀ tally resumed final,
            collect again true later ended mended = (.ok tally, resumed, final) →
            final.objects = (collect marks true elapsed collector
              { bucket with faults := [] }).2.2.objects) ∧
          (mended.Unfailing →
            ∃ tally, (collect again true later ended mended).1 = .ok tally) := by
  refine ⟨?_, ?_, ?_⟩
  · intro cause after refused
    have failed : sweep marks true bucket = (.error (.failure cause), after) :=
      sweep_of_refused refused marks true
    exact ⟨(collect_eq_failure_iff idle).mpr ⟨failed, rfl⟩, Bucket.of_list_eq refused⟩
  · intro front entry back cause after stumbles
    obtain ⟨leftOver, noted⟩ := stumbles.leaves once
    refine ⟨(collect_eq_failure_iff idle).mpr ⟨stumbles.sweep_eq bounded, rfl⟩, leftOver, ?_⟩
    rw [noted, deadKeys, List.map_append, List.map_map]
    simp
  · intro interruption ended after ending
    have failed := sweep_of_collect_error idle ending
    obtain ⟨cause, rfl, reason⟩ := of_sweep_error bounded failed
    obtain ⟨_, rfl⟩ := (collect_eq_failure_iff idle).mp ending
    obtain ⟨fewer, sameKept⟩ := kept_of_sweep_error once bounded failed
    refine ⟨rfl, ⟨cause, rfl, reason⟩, ?_⟩
    intro again same mended isAfter later
    rw [← isAfter] at fewer sameKept
    have onceMended : (mended.objects.map Prod.fst).Nodup := once.sublist (fewer.map Prod.fst)
    have boundedMended : totalSize (mended.objects.map row) < 2 ^ 64 :=
      Nat.lt_of_le_of_lt (totalSize_rows_le fewer) bounded
    have endedIdle : Collector.idle.phase = .idle := rfl
    constructor
    · intro tally resumed final collected
      rw [objects_of_collect_ok endedIdle onceMended boundedMended collected, kept_congr same,
        sameKept, objects_of_undisturbed idle once bounded]
    · intro unfailing
      obtain ⟨_, collected, _⟩ :=
        collect_of_unfailing endedIdle unfailing onceMended boundedMended again true later
      exact ⟨_, congrArg Prod.fst collected⟩

/-! ### A deletion that fails, and a listing that does -/

/-- An object that is marked below, and after it others that are not, one of them
a ghost.  One call is to fail. -/
def brittle (fault : Fault) : Bucket :=
  ⟨"", [((repeated 1).text, ⟨[1], "", 1, false⟩), ("anchor", ⟨[2], "", 1, false⟩),
    ("phantom", ⟨[], "", 1, true⟩), ("remainder", ⟨[3], (repeated 3).text, 1, false⟩),
    ("tail", ⟨[4], "", 1, false⟩)], [fault], []⟩

def breakdown : Fault :=
  ⟨.delete, some "remainder", .failure (.remoteFailure 503 "slow down") []⟩

def outage : Fault :=
  ⟨.list, none, .failure (.remoteFailure 500 "") []⟩

/-- The deletion of the fourth object fails when the second one is gone, and the
fifth one is not touched; another session finishes the work.  A listing that fails
leaves all there is. -/
theorem brittle_is_swept_again :
    (∃ after tally resumed final,
      collect [repeated 1] true 0 idle (brittle breakdown) =
        (.error (.failure (.remoteFailure 503 "slow down")), idle, after) ∧
      after.objects.map Prod.fst = [(repeated 1).text, "phantom", "remainder", "tail"] ∧
      after.calls =
        [(.list, ""), (.delete, "anchor"), (.delete, "phantom"), (.delete, "remainder")] ∧
      collect [repeated 1, repeated 1] true 1 idle after = (.ok tally, resumed, final) ∧
      final.objects.map Prod.fst = [(repeated 1).text, "phantom"]) ∧
    ∃ after, collect [repeated 1] true 0 idle (brittle outage) =
        (.error (.failure (.remoteFailure 500 "")), idle, after) ∧
      after.objects = (brittle outage).objects := by
  have same (fingerprint : Fingerprint) :
      fingerprint ∈ [repeated 1, repeated 1] ↔ fingerprint ∈ [repeated 1] := by simp
  have stumbles : Stumbles [repeated 1] (brittle breakdown) ((brittle breakdown).objects.take 3)
      ("remainder", ⟨[3], (repeated 3).text, 1, false⟩) ((brittle breakdown).objects.drop 4)
      (.remoteFailure 503 "slow down") (sweep [repeated 1] true (brittle breakdown)).2 :=
    ⟨rfl, by decide +kernel, _, _, _, Prod.ext rfl rfl, Prod.ext (by decide +kernel) rfl,
      Prod.ext (by decide +kernel) rfl⟩
  have mended : (sweep [repeated 1] true (brittle breakdown)).2.Unfailing :=
    Bucket.unfailing_of_calm (by decide +kernel)
  obtain ⟨_, stopped, repeats⟩ := failed_sweep_can_be_repeated [repeated 1] idle rfl
    (brittle breakdown) (by decide +kernel) (by decide +kernel) 0
  obtain ⟨unlisted, _⟩ := failed_sweep_can_be_repeated [repeated 1] idle rfl
    (brittle outage) (by decide +kernel) (by decide +kernel) 0
  obtain ⟨collected, leftOver, noted⟩ := stopped _ _ _ _ _ stumbles
  obtain ⟨_, _, resumes⟩ := repeats _ _ _ collected
  obtain ⟨finishes, succeeds⟩ := resumes [repeated 1, repeated 1] same _ rfl 1
  obtain ⟨tally, succeeded⟩ := succeeds mended
  have finished := finishes tally _ _ (Prod.ext succeeded rfl)
  refine ⟨⟨_, tally, _, _, collected, ?_, ?_, Prod.ext succeeded rfl, ?_⟩, _,
    (unlisted _ _ (Prod.ext rfl rfl)).1, (unlisted _ _ (Prod.ext rfl rfl)).2.1⟩
  · rw [leftOver]
    decide +kernel
  · rw [noted]
    decide +kernel
  · rw [finished]
    decide +kernel

end ContentStore.Collector
