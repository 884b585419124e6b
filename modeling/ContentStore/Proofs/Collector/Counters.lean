import ContentStore.Proofs.Collector.Live

/-!
Contract: the counters of a sweep against the exact numbers.

Owns:
- that a sweep which completes has counted exactly;
- that a sweep is given up exactly where a sum of sizes does not fit into a word, if no
  deletion fails before;
- that a collector whose sweep was given up refuses all calls from then on;
- two listed objects at whose sizes a sweep is given up.

Does not own: which objects a remote lists.
-/

namespace ContentStore.Collector

open ListedObject (totalSize)

variable {Connection : Type} [Remote Connection]

/-- A stop is given up exactly if its sweep is. -/
theorem stop_eq_overflow_iff {collector : Collector} (marking : collector.phase = .marking)
    (delete : Bool) (elapsed : UInt64) (connection : Connection) :
    (collector.stop delete elapsed connection).1 = .error .overflow ↔
      (sweep collector.marked delete connection).1 = .error .overflow := by
  rw [stop_of_marking marking]
  cases (sweep collector.marked delete connection).1 <;> simp [Except.map]

/-- A sweep that completes has added sizes whose sums fit, and comes to the count of all
that is listed. -/
theorem of_sweep_completes {marked : List Fingerprint} {delete : Bool}
    {connection listed : Connection} {objects : List ListedObject} {tally : Tally}
    (answered : Remote.list connection = (.ok objects, listed))
    (swept : (sweep marked delete connection).1 = .ok tally) :
    let live := objects.filter (isLive marked)
    let collected := objects.filter fun object => !isLive marked object
    Tally.Fits live collected ∧ tally = Tally.of live collected := by
  intro live collected
  by_cases fits : Tally.Fits live collected
  · rw [sweep_of_listed answered fits] at swept
    cases deleted : (deleteAll (targets marked delete objects) listed).1 <;> rw [deleted] at swept
    · exact nomatch swept
    · exact ⟨fits, (Except.ok.inj swept).symm⟩
  · obtain ⟨front, _, _, ended⟩ := exists_sweep_of_large answered fits delete
    rw [ended] at swept
    cases deleted : (deleteAll front listed).1 <;> rw [deleted] at swept <;>
    exact nomatch swept

/-- A stop while marking gets a listing.  If it completes, the sums of sizes fit into
words, its counters are the exact numbers, as far as the number of objects fits into a
word, and the collector is idle with this status.  If the sums fit it is not given up.
If they do not, it is given up, unless it deletes and a deletion fails before.  If it is
given up the collector stays in its sweep without marks, and every call from then on is
refused, and changes nothing. -/
theorem sums_fit_or_stop_is_given_up (collector : Collector)
    (marking : collector.phase = .marking) (delete : Bool) (elapsed : UInt64)
    (connection listed : Connection) (objects : List ListedObject)
    (answered : Remote.list connection = (.ok objects, listed)) :
    let live := objects.filter (isLive collector.marked)
    let collected := objects.filter fun object => !isLive collector.marked object
    let stopped := collector.stop delete elapsed connection
    (∀ tally, stopped.1 = .ok tally →
      Tally.Fits live collected ∧
      tally.sizeLive.toNat = totalSize live ∧
      tally.sizeCollected.toNat = totalSize collected ∧
      (objects.length < 2 ^ 64 →
        tally.numLive.toNat = live.length ∧ tally.numCollected.toNat = collected.length) ∧
      tally.durationMillis = elapsed ∧
      stopped.2.1 = ⟨.idle, [], tally⟩) ∧
    (Tally.Fits live collected → stopped.1 ≠ .error .overflow) ∧
    (¬ Tally.Fits live collected → stopped.1 = .error .overflow ∨
      delete = true ∧ ∃ cause, stopped.1 = .error (.failure cause)) ∧
    (stopped.1 = .error .overflow →
      stopped.2.1 = ⟨.sweeping, [], collector.status⟩ ∧
      ∀ (used : Connection) (marks : List Fingerprint) (calls : List Call),
        (⟨stopped.2.1, used, marks⟩ : Session Connection).performAll calls =
          ⟨stopped.2.1, used, marks⟩) := by
  intro live collected stopped
  have stops : stopped = _ := stop_of_marking marking delete elapsed connection
  refine ⟨?_, ?_, ?_, ?_⟩
  · intro tally completes
    rw [stops] at completes ⊢
    rcases swept : (sweep collector.marked delete connection).1 with interruption | counted <;>
      rw [swept] at completes
    · exact absurd completes (by simp [Except.map])
    · obtain ⟨fits, rfl⟩ := of_sweep_completes answered swept
      obtain rfl := Except.ok.inj completes
      obtain ⟨sizeLive, sizeCollected⟩ := Tally.sizes_of fits
      refine ⟨fits, sizeLive, sizeCollected, fun few => ?_, rfl, rfl⟩
      rw [List.length_eq_length_filter_add (isLive collector.marked)] at few
      exact Tally.numbers_of few
  · intro fits overflow
    obtain ⟨others, listedToo, large⟩ :=
      exists_of_overflow ((stop_eq_overflow_iff marking delete elapsed connection).mp overflow)
    rw [answered] at listedToo
    rw [← Except.ok.inj listedToo] at large
    exact large fits
  · intro large
    obtain ⟨front, back, split, swept⟩ := exists_sweep_of_large answered large delete
    rw [stops, swept]
    cases delete with
    | false =>
      -- nothing is deleted, so that no deletion fails
      obtain ⟨rfl, _⟩ := List.append_eq_nil_iff.mp split.symm
      exact Or.inl rfl
    | true =>
      cases (deleteAll front listed).1 with
      | error cause => exact Or.inr ⟨rfl, cause, rfl⟩
      | ok _ => exact Or.inl rfl
  · intro overflow
    have stays : stopped.2.1 = ⟨.sweeping, [], collector.status⟩ := by
      have swept := (stop_eq_overflow_iff marking delete elapsed connection).mp overflow
      rw [stops, swept]
      rfl
    refine ⟨stays, fun used marks calls => ?_⟩
    exact Session.performAll_of_sweeping (by rw [stays]) calls

/-! ### Sizes up to the limit, and beyond it -/

def firstKey : Fingerprint :=
  ⟨"2c1743a391305fbf367df8e4f069f9f9", by decide⟩

def secondKey : Fingerprint :=
  ⟨"900150983cd24fb0d6963f7d28e17f72", by decide⟩

/-- A bucket that holds two objects of certain sizes. -/
def pairOf (first second : UInt64) : Bucket :=
  { Bucket.empty "b" with
    objects :=
      [(firstKey.text, ⟨[], "", first.toNat, false⟩),
        (secondKey.text, ⟨[], "", second.toNat, false⟩)] }

/-- The two objects as they are listed. -/
def listedPair (first second : UInt64) : List ListedObject :=
  [.named firstKey.text "" first, .named secondKey.text "" second]

def largest : UInt64 := 18446744073709551615

/-- Two sizes that fit are counted, though their sum does not fit, as one of the objects
is live and the other is not. -/
theorem largest_sizes_are_counted_apart :
    ∃ tally, ((⟨.marking, [firstKey], Tally.zero⟩ : Collector).stop true 5
          (pairOf largest largest)).1 = .ok tally ∧
      tally.sizeLive = largest ∧ tally.sizeCollected = largest ∧
      ((⟨.marking, [firstKey], Tally.zero⟩ : Collector).stop true 5
          (pairOf largest largest)).2.1 = ⟨.idle, [], tally⟩ := by
  have facts : (Remote.list (pairOf largest largest)).1 = .ok (listedPair largest largest) ∧
      ((⟨.marking, [firstKey], Tally.zero⟩ : Collector).stop true 5 (pairOf largest largest)).1 =
        .ok ⟨1, largest, 1, largest, 5⟩ ∧
      (listedPair largest largest).filter (isLive [firstKey]) =
        [.named firstKey.text "" largest] ∧
      ((listedPair largest largest).filter fun object => !isLive [firstKey] object) =
        [.named secondKey.text "" largest] := by
    decide +kernel
  obtain ⟨bucket, isPair⟩ : ∃ bucket, pairOf largest largest = bucket := ⟨_, rfl⟩
  rw [isPair] at facts ⊢
  obtain ⟨answered, swept, live, collected⟩ := facts
  obtain ⟨completed, _⟩ := sums_fit_or_stop_is_given_up
    ⟨.marking, [firstKey], Tally.zero⟩ rfl true 5 bucket _ _ (Prod.ext answered rfl)
  obtain ⟨_, sizeLive, sizeCollected, _, _, idle⟩ := completed _ swept
  rw [live] at sizeLive
  rw [collected] at sizeCollected
  refine ⟨_, swept, ?_, ?_, idle⟩
  · exact UInt64.toNat_inj.mp (sizeLive.trans (by decide +kernel))
  · exact UInt64.toNat_inj.mp (sizeCollected.trans (by decide +kernel))

/-- Half of the numbers of a word. -/
def half : UInt64 := 9223372036854775808

/-- A document that lists two objects, each with half of a word as its size. -/
def halves : String :=
  "<ListBucketResult><Contents><Key>2c1743a391305fbf367df8e4f069f9f9</Key>" ++
    "<Size>9223372036854775808</Size></Contents>" ++
    "<Contents><Key>900150983cd24fb0d6963f7d28e17f72</Key>" ++
    "<Size>9223372036854775808</Size></Contents></ListBucketResult>"

/-- A listing may well tell the sizes of two objects at which a stop is given up, even
if it deletes nothing; after that, no session can be started. -/
theorem sizes_of_two_objects_give_up_the_stop :
    (Listing.ofDocument halves).map Listing.contents = .ok (listedPair half half) ∧
      (Remote.list (pairOf half half)).1 = .ok (listedPair half half) ∧
      totalSize (listedPair half half) = 2 ^ 64 ∧
      ((⟨.marking, [], Tally.zero⟩ : Collector).stop false 0 (pairOf half half)).1 =
        .error .overflow ∧
      ((⟨.marking, [], Tally.zero⟩ : Collector).stop false 0 (pairOf half half)).2.1 =
        ⟨.sweeping, [], Tally.zero⟩ ∧
      (⟨.sweeping, [], Tally.zero⟩ : Collector).start = .error .alreadyStarted := by
  refine ⟨?_, ?_, ?_, ?_, ?_, ?_⟩ <;> decide +kernel

end ContentStore.Collector
