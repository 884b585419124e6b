import ContentStore.Proofs.Collector.Live

/-!
Contract: a sweep of a bucket in memory is a filter.

Owns:
- `deleteAll_ok`, by which deletions that all succeed leave the other objects,
  and ghosts;
- `of_sweep_ok`, what a sweep that succeeds counts, leaves, and has asked for;
- that a sweep succeeds if no listing and no deletion fails;
- what two sessions come to, over the same objects in any order, or one after the
  other.

Does not own: sweeps that fail.
-/

namespace ContentStore.Collector

open Bucket (row left)
open ListedObject (totalSize)
open Fingerprint (repeated)

variable {marks again : List Fingerprint} {bucket listed after : Bucket}
  {objects : List (String × StoredObject)}

/-! ## Deletions -/

/-- Deletions that all succeed leave the objects under other keys, and ghosts,
and each of them is noted. -/
theorem deleteAll_ok {keys : List String} (once : (bucket.objects.map Prod.fst).Nodup)
    (done : deleteAll keys bucket = (.ok (), after)) :
    after.objects = left keys bucket.objects ∧
      after.calls = bucket.calls ++ keys.map fun key => (.delete, key) := by
  induction keys generalizing bucket with
  | nil =>
    obtain ⟨_, rfl⟩ := Prod.mk.inj done
    exact ⟨(Bucket.left_nil _).symm, by simp⟩
  | cons key rest inductionHypothesis =>
    rcases deleted : Remote.delete key bucket with ⟨cause | removal, next⟩
    · rw [deleteAll_cons_of_error deleted] at done
      exact absurd (Prod.mk.inj done).1 (by simp)
    · rw [deleteAll_cons_of_ok deleted] at done
      obtain ⟨nextObjects, nextCalls⟩ := Bucket.of_delete_ok once deleted
      have onceNext : (next.objects.map Prod.fst).Nodup := by
        rw [nextObjects]
        exact Bucket.nodup_left once [key]
      obtain ⟨sameObjects, sameCalls⟩ := inductionHypothesis onceNext done
      rw [sameObjects, sameCalls, nextObjects, nextCalls, ← Bucket.left_cons, List.append_assoc]
      exact ⟨rfl, rfl⟩

private theorem deleteAll_of_unfailing (unfailing : bucket.Unfailing) (keys : List String) :
    ∃ after, deleteAll keys bucket = (.ok (), after) ∧ after.Unfailing := by
  induction keys generalizing bucket with
  | nil => exact ⟨bucket, rfl, unfailing⟩
  | cons key rest inductionHypothesis =>
    obtain ⟨⟨removal, succeeded⟩, unfailingNext⟩ := unfailing.delete key
    obtain ⟨after, done, unfailingAfter⟩ := inductionHypothesis unfailingNext
    have deleted : Remote.delete key bucket = (.ok removal, (bucket.delete key).2) :=
      Prod.ext succeeded rfl
    exact ⟨after, (deleteAll_cons_of_ok deleted rest).trans done, unfailingAfter⟩

/-! ## Sweeps -/

/-- A sweep that gets a listing deletes the objects that are not live, if it is
told to, and comes to the count of all objects if no deletion fails. -/
theorem sweep_of_answered {rows : List ListedObject} (answered : bucket.list = (.ok rows, listed))
    (bounded : totalSize (bucket.objects.map row) < 2 ^ 64) (marks : List Fingerprint)
    (delete : Bool) :
    sweep marks delete bucket =
      (((deleteAll (if delete then deadKeys marks bucket.objects else []) listed).1.mapError
          .failure).map fun _ => tallyOf marks bucket.objects,
        (deleteAll (if delete then deadKeys marks bucket.objects else []) listed).2) := by
  have isListing : rows = bucket.objects.map row := Bucket.eq_of_list_ok answered
  have sameTargets : targets marks delete (bucket.objects.map row) =
      if delete then deadKeys marks bucket.objects else [] := by
    cases delete with
    | false => rfl
    | true => exact targets_rows marks bucket.objects
  have fits := Tally.fits_filter bounded (isLive marks)
  rw [← isListing] at fits
  rw [sweep_of_listed answered fits, isListing, sameTargets, filter_isLive_rows,
    filter_not_isLive_rows]
  rfl

/-- A sweep that succeeds comes to the count of all objects.  If it was told to
delete it leaves those that are live, and ghosts, and has deleted each of the
others once, in the order of the listing. -/
theorem of_sweep_ok {delete : Bool} {tally : Tally} (once : (bucket.objects.map Prod.fst).Nodup)
    (bounded : totalSize (bucket.objects.map row) < 2 ^ 64)
    (swept : sweep marks delete bucket = (.ok tally, after)) :
    tally = tallyOf marks bucket.objects ∧
      after.objects = (if delete then kept marks bucket.objects else bucket.objects) ∧
      after.calls = bucket.calls ++ (.list, "") ::
        (if delete then deadKeys marks bucket.objects else []).map fun key => (.delete, key) := by
  rcases answered : bucket.list with ⟨cause | rows, listed⟩
  · rw [sweep_of_refused answered] at swept
    exact absurd (Prod.mk.inj swept).1 (by simp)
  · obtain ⟨listedObjects, listedCalls⟩ := Bucket.of_list_eq answered
    rw [sweep_of_answered answered bounded] at swept
    obtain ⟨counted, reached⟩ := Prod.mk.inj swept
    rcases deleted : deleteAll (if delete then deadKeys marks bucket.objects else []) listed with
      ⟨cause | _, last⟩ <;> rw [deleted] at counted reached
    · exact nomatch counted
    · obtain ⟨leftOver, noted⟩ := deleteAll_ok (by rw [listedObjects]; exact once) deleted
      rw [← reached, leftOver, noted, listedObjects, listedCalls, List.append_assoc]
      refine ⟨(Except.ok.inj counted).symm, ?_, rfl⟩
      cases delete with
      | false => exact Bucket.left_nil _
      | true => exact left_deadKeys once

/-- A sweep succeeds if no listing and no deletion fails. -/
theorem sweep_of_unfailing (unfailing : bucket.Unfailing)
    (bounded : totalSize (bucket.objects.map row) < 2 ^ 64) (marks : List Fingerprint)
    (delete : Bool) :
    ∃ after, sweep marks delete bucket = (.ok (tallyOf marks bucket.objects), after) ∧
      after.Unfailing := by
  obtain ⟨after, done, unfailingAfter⟩ := deleteAll_of_unfailing (unfailing.noted .list "")
    (if delete then deadKeys marks bucket.objects else [])
  refine ⟨after, ?_, unfailingAfter⟩
  rw [sweep_of_answered unfailing.list bounded, done]
  rfl

section Sessions

variable {collector : Collector}

/-- A session in which no call fails comes to the count of all objects. -/
theorem collect_of_unfailing (idle : collector.phase = .idle) (unfailing : bucket.Unfailing)
    (once : (bucket.objects.map Prod.fst).Nodup)
    (bounded : totalSize (bucket.objects.map row) < 2 ^ 64) (marks : List Fingerprint)
    (delete : Bool) (elapsed : UInt64) :
    let tally := (tallyOf marks bucket.objects).lasting elapsed
    ∃ after, collect marks delete elapsed collector bucket =
        (.ok tally, ⟨.idle, [], tally⟩, after) ∧
      after.objects = (if delete then kept marks bucket.objects else bucket.objects) ∧
      after.calls = bucket.calls ++ (.list, "") ::
        ((if delete then deadKeys marks bucket.objects else []).map fun key => (.delete, key)) ∧
      after.Unfailing := by
  obtain ⟨after, swept, unfailingAfter⟩ := sweep_of_unfailing unfailing bounded marks delete
  obtain ⟨_, leftOver, noted⟩ := of_sweep_ok once bounded swept
  refine ⟨after, ?_, leftOver, noted, unfailingAfter⟩
  rw [collect_of_idle idle, swept]
  rfl

/-- Sessions over the same objects with the same marks, in any order, come to the
same. -/
theorem collect_perm {collector second : Collector} {other : Bucket}
    (idle : collector.phase = .idle) (secondIdle : second.phase = .idle)
    (unfailing : bucket.Unfailing) (otherUnfailing : other.Unfailing)
    (once : (bucket.objects.map Prod.fst).Nodup)
    (bounded : totalSize (bucket.objects.map row) < 2 ^ 64)
    (perm : other.objects.Perm bucket.objects)
    (same : ∀ fingerprint, fingerprint ∈ again ↔ fingerprint ∈ marks) (delete : Bool)
    (elapsed : UInt64) :
    (collect again delete elapsed second other).1 =
        (collect marks delete elapsed collector bucket).1 ∧
      (collect again delete elapsed second other).2.2.objects.Perm
        (collect marks delete elapsed collector bucket).2.2.objects := by
  have onceOther : (other.objects.map Prod.fst).Nodup := (perm.map Prod.fst).nodup_iff.mpr once
  have boundedOther : totalSize (other.objects.map row) < 2 ^ 64 := by
    rw [ListedObject.totalSize_perm (perm.map row)]
    exact bounded
  obtain ⟨after, collected, leftOver, _⟩ :=
    collect_of_unfailing idle unfailing once bounded marks delete elapsed
  obtain ⟨afterOther, collectedOther, leftOther, _⟩ :=
    collect_of_unfailing secondIdle otherUnfailing onceOther boundedOther again delete elapsed
  rw [collected, collectedOther, leftOver, leftOther]
  refine ⟨?_, ?_⟩
  · rw [tallyOf_congr same, tallyOf_perm perm]
  · rw [kept_congr same]
    cases delete with
    | false => exact perm
    | true => exact kept_perm perm marks

/-- A session after one that has swept a bucket without ghosts collects nothing,
and counts the same objects as live. -/
theorem collect_of_swept (idle : collector.phase = .idle) {swept : Bucket}
    (unfailing : swept.Unfailing) (leftOver : swept.objects = kept marks objects)
    (once : (objects.map Prod.fst).Nodup) (bounded : totalSize (objects.map row) < 2 ^ 64)
    (solid : ∀ entry ∈ objects, entry.2.isGhost = false)
    (same : ∀ fingerprint, fingerprint ∈ again ↔ fingerprint ∈ marks) (delete : Bool)
    (elapsed : UInt64) :
    let rest : Tally :=
      { tallyOf marks objects with
        numCollected := 0, sizeCollected := 0, durationMillis := elapsed }
    ∃ after, collect again delete elapsed collector swept =
        (.ok rest, ⟨.idle, [], rest⟩, after) ∧
      after.objects = swept.objects ∧ after.calls = swept.calls ++ [(.list, "")] := by
  have onceSwept : (swept.objects.map Prod.fst).Nodup := by
    rw [leftOver]
    exact once.sublist (List.filter_sublist.map Prod.fst)
  have boundedSwept : totalSize (swept.objects.map row) < 2 ^ 64 := by
    rw [leftOver]
    exact Nat.lt_of_le_of_lt (totalSize_rows_le List.filter_sublist) bounded
  have noneDead : deadKeys again swept.objects = [] := by
    rw [deadKeys_congr same, leftOver, deadKeys, filter_dead_kept solid]
    rfl
  have keptSwept : kept again swept.objects = swept.objects := by
    rw [kept_congr same, leftOver, kept_kept]
  have counted : tallyOf again swept.objects =
      { tallyOf marks objects with numCollected := 0, sizeCollected := 0 } := by
    rw [tallyOf_congr same, leftOver, tallyOf_kept solid]
  obtain ⟨after, collected, leftAfter, noted, _⟩ :=
    collect_of_unfailing idle unfailing onceSwept boundedSwept again delete elapsed
  rw [keptSwept, ite_self] at leftAfter
  rw [noneDead, ite_self] at noted
  rw [counted] at collected
  exact ⟨after, collected, leftAfter, noted⟩

end Sessions

/-- On a bucket that lists each key once, and where neither the listing nor a
deletion fails, a session that deletes leaves just the objects that are live, and
ghosts, and asks for each of the others to be deleted once, in the order of the
listing; a session that does not delete changes nothing, and counts the same.
The counters tell the objects that are live from the others, and are exact where
the sizes, and the number of objects, fit into a word.  Neither the order of the
listing nor the order and repetition of the marks matters, and without ghosts
another session with the same marks collects nothing and counts the same objects
as live, whatever time it takes. -/
theorem sweep_is_a_filter (marks : List Fingerprint) (collector : Collector)
    (idle : collector.phase = .idle) (bucket : Bucket) (unfailing : bucket.Unfailing)
    (once : (bucket.objects.map Prod.fst).Nodup)
    (bounded : totalSize (bucket.objects.map row) < 2 ^ 64) (elapsed : UInt64) :
    let live := bucket.objects.filter (Live marks ·)
    let dead := bucket.objects.filter (¬ Live marks ·)
    let tally := (Tally.of (live.map row) (dead.map row)).lasting elapsed
    (∃ swept,
      collect marks true elapsed collector bucket = (.ok tally, ⟨.idle, [], tally⟩, swept) ∧
      swept.objects = bucket.objects.filter (fun entry => Live marks entry ∨ entry.2.isGhost) ∧
      swept.calls = bucket.calls ++ (.list, "") :: dead.map (fun entry => (.delete, entry.1)) ∧
      ((∀ entry ∈ swept.objects, entry.2.isGhost = false) →
        ∀ again, (∀ fingerprint, fingerprint ∈ again ↔ fingerprint ∈ marks) →
          ∀ delete later,
            let rest : Tally :=
              { tally with numCollected := 0, sizeCollected := 0, durationMillis := later }
            ∃ after, collect again delete later ⟨.idle, [], tally⟩ swept =
                (.ok rest, ⟨.idle, [], rest⟩, after) ∧
              after.objects = swept.objects ∧ after.calls = swept.calls ++ [(.list, "")])) ∧
    (∃ listed,
      collect marks false elapsed collector bucket = (.ok tally, ⟨.idle, [], tally⟩, listed) ∧
      listed.objects = bucket.objects ∧ listed.calls = bucket.calls ++ [(.list, "")]) ∧
    (tally.sizeLive.toNat = totalSize (live.map row) ∧
      tally.sizeCollected.toNat = totalSize (dead.map row) ∧
      tally.sizeLive.toNat + tally.sizeCollected.toNat = totalSize (bucket.objects.map row)) ∧
    (bucket.objects.length < 2 ^ 64 →
      tally.numLive.toNat = live.length ∧ tally.numCollected.toNat = dead.length ∧
      tally.numLive.toNat + tally.numCollected.toNat = bucket.objects.length) ∧
    ∀ again, (∀ fingerprint, fingerprint ∈ again ↔ fingerprint ∈ marks) →
      ∀ (second : Collector) (other : Bucket), second.phase = .idle → other.Unfailing →
        other.objects.Perm bucket.objects → ∀ delete,
          (collect again delete elapsed second other).1 = .ok tally ∧
          (collect again delete elapsed second other).2.2.objects.Perm
            (collect marks delete elapsed collector bucket).2.2.objects := by
  intro live dead tally
  obtain ⟨swept, deleted, leftOver, noted, unfailingSwept⟩ :=
    collect_of_unfailing idle unfailing once bounded marks true elapsed
  obtain ⟨listed, counted, same, noListing, _⟩ :=
    collect_of_unfailing idle unfailing once bounded marks false elapsed
  rw [if_pos rfl] at leftOver noted
  rw [if_neg Bool.false_ne_true] at same noListing
  refine ⟨⟨swept, deleted, leftOver, ?_, ?_⟩, ⟨listed, counted, same, noListing⟩,
    sizes_tallyOf bounded marks, fun few => numbers_tallyOf few marks, ?_⟩
  · rw [noted, deadKeys, List.map_map]
    rfl
  · intro solidSwept again sameMarks delete later
    -- a ghost in the bucket would have been left over
    have solid (entry : String × StoredObject) (member : entry ∈ bucket.objects) :
        entry.2.isGhost = false := by
      by_contra ghost
      have remains : entry ∈ swept.objects := by
        rw [leftOver]
        exact List.mem_filter.mpr ⟨member, by simpa using Or.inr ghost⟩
      exact ghost (solidSwept entry remains)
    exact collect_of_swept rfl unfailingSwept leftOver once bounded solid sameMarks delete later
  · intro again sameMarks second other secondIdle otherUnfailing perm delete
    obtain ⟨sameOutcome, permAfter⟩ :=
      collect_perm idle secondIdle unfailing otherUnfailing once bounded perm sameMarks delete
        elapsed
    refine ⟨?_, permAfter⟩
    obtain ⟨_, collected, _⟩ :=
      collect_of_unfailing idle unfailing once bounded marks delete elapsed
    rw [sameOutcome, collected]
    rfl

/-! ### Objects of every kind -/

/-- An object that is marked below by its key, one that is marked by its entity
tag, and two that are not marked, of which the last one may be a ghost.  A fetch
is to fail. -/
def shelf (haunted : Bool) : Bucket :=
  ⟨"", [((repeated 1).text, ⟨[1], "", 2, false⟩), ("photograph", ⟨[2], (repeated 2).text, 3, false⟩),
    ("remainder", ⟨[3], (repeated 3).text, 5, false⟩), ("spectre", ⟨[], "", 7, haunted⟩)],
    [⟨.get, none, .failure .notFound []⟩], []⟩

def threeMarks : List Fingerprint :=
  [repeated 2, repeated 1, repeated 2]

/-- The two objects that are not marked are to be deleted, and the ghost stays;
from the other end, and with each mark once, the count is the same.  Where there
is no ghost, another session collects nothing. -/
theorem shelf_is_swept :
    (∃ swept, collect threeMarks true 8 idle (shelf true) =
        (.ok ⟨2, 5, 2, 12, 8⟩, ⟨.idle, [], ⟨2, 5, 2, 12, 8⟩⟩, swept) ∧
      swept.objects.map Prod.fst = [(repeated 1).text, "photograph", "spectre"] ∧
      swept.calls = [(.list, ""), (.delete, "remainder"), (.delete, "spectre")]) ∧
    (collect [repeated 1, repeated 2] true 8 idle
        { shelf true with objects := (shelf true).objects.reverse }).1 = .ok ⟨2, 5, 2, 12, 8⟩ ∧
    ∃ swept after, collect threeMarks true 8 idle (shelf false) =
        (.ok ⟨2, 5, 2, 12, 8⟩, ⟨.idle, [], ⟨2, 5, 2, 12, 8⟩⟩, swept) ∧
      collect [repeated 1, repeated 2] true 3 ⟨.idle, [], ⟨2, 5, 2, 12, 8⟩⟩ swept =
        (.ok ⟨2, 5, 0, 0, 3⟩, ⟨.idle, [], ⟨2, 5, 0, 0, 3⟩⟩, after) := by
  have unfailing (haunted : Bool) : (shelf haunted).Unfailing := by
    intro fault member tame
    rw [List.mem_singleton.mp member] at tame
    exact absurd tame (by decide)
  have counted (haunted : Bool) :
      (Tally.of (((shelf haunted).objects.filter (Live threeMarks ·)).map row)
        (((shelf haunted).objects.filter (¬ Live threeMarks ·)).map row)).lasting 8 =
          ⟨2, 5, 2, 12, 8⟩ := by
    cases haunted <;> decide +kernel
  have same (fingerprint : Fingerprint) :
      fingerprint ∈ [repeated 1, repeated 2] ↔ fingerprint ∈ threeMarks := by
    simp only [threeMarks, List.mem_cons, List.not_mem_nil, or_false]
    tauto
  obtain ⟨⟨swept, collected, leftOver, noted, _⟩, _, _, _, anyOrder⟩ :=
    sweep_is_a_filter threeMarks idle rfl (shelf true) (unfailing true)
      (by decide +kernel) (by decide +kernel) 8
  obtain ⟨⟨sweptAll, collectedAll, leftAll, _, resumed⟩, _⟩ :=
    sweep_is_a_filter threeMarks idle rfl (shelf false) (unfailing false)
      (by decide +kernel) (by decide +kernel) 8
  have solid : ∀ entry ∈ sweptAll.objects, entry.2.isGhost = false := by
    rw [leftAll]
    decide +kernel
  obtain ⟨after, collectedAgain, _⟩ := resumed solid [repeated 1, repeated 2] same true 3
  obtain ⟨reversed, _⟩ := anyOrder [repeated 1, repeated 2] same idle
    { shelf true with objects := (shelf true).objects.reverse } rfl (unfailing true)
    (List.reverse_perm _) true
  rw [counted] at collected collectedAll collectedAgain reversed
  refine ⟨⟨swept, collected, ?_, ?_⟩, reversed, sweptAll, after, collectedAll, collectedAgain⟩
  · rw [leftOver]
    decide +kernel
  · rw [noted]
    decide +kernel

end ContentStore.Collector
