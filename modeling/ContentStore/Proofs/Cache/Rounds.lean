import ContentStore.Proofs.Cache.Eviction

/-!
Contract: an eviction as a loop that takes one entry in each round.

Owns:
- `Evictable`, by which an entry may be taken: it is not to be kept, and no
  handle on it is held;
- `evictOne?`, a round, which takes the least recently used entry that may be
  taken, and `rounds?`, a number of them;
- `exists_rounds`, by which the loop ends after no more rounds than there are
  entries, where making room ends;
- `evictOne?_eq_none_iff`, what it means that no round is left.

Does not own: which entry is the least recently used.
-/

namespace ContentStore.Cache

variable {cache : Cache} {entry : Entry} {keep : Fingerprint} {order skipped : List Entry}

def Evictable (cache : Cache) (keep : Fingerprint) (entry : Entry) : Prop :=
  entry.fingerprint ≠ keep ∧ entry ∉ cache.held

instance (cache : Cache) (keep : Fingerprint) : DecidablePred (cache.Evictable keep) :=
  fun entry => inferInstanceAs (Decidable (entry.fingerprint ≠ keep ∧ entry ∉ cache.held))

/-- Take one entry, if the cache is over its budget and an entry may be taken. -/
def evictOne? (keep : Fingerprint) (cache : Cache) : Option Cache :=
  if cache.total ≤ cache.budget then none
  else
    (cache.entries.reverse.find? fun entry => cache.Evictable keep entry).map fun victim =>
      dispose { cache with entries := cache.entries.erase victim } victim

/-- The cache after a number of rounds; nothing if there are not so many. -/
def rounds? (keep : Fingerprint) : Nat → Cache → Option Cache
  | 0, cache => some cache
  | count + 1, cache => (evictOne? keep cache).bind (rounds? keep count)

theorem evictOne?_eq_none_iff :
    evictOne? keep cache = none ↔
      cache.total ≤ cache.budget ∨ ∀ entry ∈ cache.entries, ¬ cache.Evictable keep entry := by
  unfold evictOne?
  by_cases fits : cache.total ≤ cache.budget
  · simp [fits]
  · simp [fits]

/-- If every entry that was used less recently must stay, a round takes the
next one that may be taken. -/
theorem evictOne?_eq_some (reversed : cache.entries.reverse = skipped ++ entry :: order)
    (staying : ∀ other ∈ skipped, ¬ cache.Evictable keep other)
    (exceeded : ¬ cache.total ≤ cache.budget) (evictable : cache.Evictable keep entry) :
    evictOne? keep cache =
      some (dispose { cache with entries := cache.entries.erase entry } entry) := by
  have unfound : skipped.find? (fun other => cache.Evictable keep other) = none := by
    simpa using staying
  have found : cache.entries.reverse.find? (fun other => cache.Evictable keep other) =
      some entry := by
    rw [reversed, List.find?_append, unfound, Option.none_or]
    exact List.find?_cons_of_pos (decide_eq_true evictable)
  unfold evictOne?
  rw [if_neg exceeded, found, Option.map_some]

private theorem reverse_erase_of_nodup (once : cache.entries.Nodup)
    (reversed : cache.entries.reverse = skipped ++ entry :: order) :
    (cache.entries.erase entry).reverse = skipped ++ order := by
  have forward : cache.entries = order.reverse ++ entry :: skipped.reverse := by
    rw [← List.reverse_reverse cache.entries, reversed]
    simp
  have apart : entry ∉ order.reverse := by
    rw [forward] at once
    intro member
    exact (List.nodup_append.mp once).2.2 entry member entry List.mem_cons_self rfl
  rw [forward, List.erase_append_right _ apart, List.erase_cons_head]
  simp

/-- An eviction in order is a loop of rounds that ends.  The entries before the
order are those that an earlier round has looked at and left. -/
theorem exists_rounds_inOrder (keep : Fingerprint) (order skipped : List Entry)
    (once : cache.entries.Nodup) (reversed : cache.entries.reverse = skipped ++ order)
    (staying : ∀ other ∈ skipped, ¬ cache.Evictable keep other) :
    ∃ count ≤ order.length, rounds? keep count cache = some (evictInOrder keep order cache) ∧
      evictOne? keep (evictInOrder keep order cache) = none := by
  induction order generalizing cache skipped with
  | nil =>
    refine ⟨0, Nat.le_refl _, rfl, ?_⟩
    rw [List.append_nil] at reversed
    apply evictOne?_eq_none_iff.mpr
    right
    intro entry member
    apply staying
    rw [← reversed]
    exact List.mem_reverse.mpr member
  | cons entry later inductionHypothesis =>
    unfold evictInOrder
    by_cases fits : cache.total ≤ cache.budget
    · rw [if_pos fits]
      exact ⟨0, Nat.zero_le _, rfl, evictOne?_eq_none_iff.mpr (Or.inl fits)⟩
    · rw [if_neg fits]
      by_cases stays : entry.fingerprint = keep ∨ entry ∈ cache.held
      · rw [if_pos stays]
        have stayingOn : ∀ other ∈ skipped ++ [entry], ¬ cache.Evictable keep other := by
          intro other member
          rcases List.mem_append.mp member with before | last
          · exact staying other before
          · rw [List.mem_singleton.mp last]
            rintro ⟨different, free⟩
            exact stays.elim different free
        obtain ⟨count, few, looped, ended⟩ :=
          inductionHypothesis (skipped ++ [entry]) once (by simpa using reversed) stayingOn
        exact ⟨count, Nat.le_succ_of_le few, looped, ended⟩
      · rw [if_neg stays]
        have evictable : cache.Evictable keep entry := not_or.mp stays
        have round := evictOne?_eq_some reversed staying fits evictable
        have remaining := dispose_entries { cache with entries := cache.entries.erase entry } entry
        have handles := dispose_held { cache with entries := cache.entries.erase entry } entry
        generalize dispose { cache with entries := cache.entries.erase entry } entry = next at *
        have onceNext : next.entries.Nodup := by
          rw [remaining]
          exact once.erase entry
        have reversedNext : next.entries.reverse = skipped ++ later := by
          rw [remaining]
          exact reverse_erase_of_nodup once reversed
        have stayingNext : ∀ other ∈ skipped, ¬ next.Evictable keep other := by
          unfold Evictable
          rw [handles]
          exact staying
        obtain ⟨count, few, looped, ended⟩ :=
          inductionHypothesis skipped onceNext reversedNext stayingNext
        refine ⟨count + 1, Nat.succ_le_succ few, ?_, ended⟩
        rw [rounds?, round, Option.bind_some]
        exact looped

/-- Making room tries the orphans again and then loops, no more often than there
are entries, until no round is left. -/
theorem Sound.exists_rounds (sound : cache.Sound) (keep : Fingerprint) :
    ∃ count ≤ cache.count, rounds? keep count cache.retryOrphans = some (cache.evict keep) ∧
      evictOne? keep (cache.evict keep) = none := by
  obtain ⟨count, few, looped, ended⟩ := exists_rounds_inOrder keep
    cache.retryOrphans.entries.reverse [] sound.retryOrphans.entries_nodup rfl (by simp)
  rw [List.length_reverse, retryOrphans_entries] at few
  exact ⟨count, few, looped, ended⟩

end ContentStore.Cache
