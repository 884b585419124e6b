import ContentStore.Proofs.Cache.Recency
import ContentStore.Proofs.Cache.Rounds
import ContentStore.Proofs.Fingerprint

/-!
Contract: which entries an insertion evicts.

Owns:
- `freed`, what disposing of some entries takes off the total, and `settled`,
  the total when orphans have been tried again;
- `ShortestToFit`, by which some entries are the shortest beginning of an order
  that has to go for a total to fit a budget;
- that the entries which an insertion evicts are this beginning of those that may
  be evicted, the least recently used first, and that all others stay as they
  stood.

Does not own: when an entry was used.
-/

namespace ContentStore.Cache

open Fingerprint (repeated)

variable {cache : Cache} {entry other : Entry} {aside order segment : List Entry}
  {keep : Fingerprint} {folder changed : Folder} {total budget : Nat}

/-! ## What disposing of entries frees -/

/-- The sizes of those entries whose files can be unlinked. -/
def freed (folder : Folder) (aside : List Entry) : Nat :=
  (aside.map fun entry => if folder.Refuses entry.file then 0 else entry.size).sum

private theorem freed_cons (folder : Folder) (entry : Entry) (aside : List Entry) :
    freed folder (entry :: aside) = freed folder [entry] + freed folder aside := by
  simp only [freed, List.map_cons, List.map_nil, List.sum_cons, List.sum_nil, Nat.add_zero]

private theorem freed_congr
    (alike : ∀ entry ∈ aside, changed.Refuses entry.file ↔ folder.Refuses entry.file) :
    freed changed aside = freed folder aside := by
  unfold freed
  congr 1
  apply List.map_congr_left
  intro entry member
  simp only [alike entry member]

private theorem total_dispose (cache : Cache) (entry : Entry) :
    (cache.dispose entry).total = cache.total - freed cache.folder [entry] := by
  rw [dispose_eq]
  by_cases refused : cache.folder.Refuses entry.file <;> simp [freed, refused]

/-- Disposing of an entry makes the files of others neither easier nor harder to
unlink. -/
theorem refuses_dispose (cache : Cache) (different : other.fingerprint ≠ entry.fingerprint) :
    (cache.dispose entry).folder.Refuses other.file ↔ cache.folder.Refuses other.file := by
  rw [dispose_eq]
  split
  · rfl
  · exact Folder.refuses_erase_of_ne fun same => different (FileName.stored.inj same)

private theorem refuses_foldl_dispose
    (different : ∀ entry ∈ aside, other.fingerprint ≠ entry.fingerprint) :
    (aside.foldl dispose cache).folder.Refuses other.file ↔ cache.folder.Refuses other.file := by
  induction aside generalizing cache with
  | nil => rfl
  | cons entry rest inductionHypothesis =>
    rw [List.foldl_cons,
      inductionHypothesis fun later member => different later (List.mem_cons_of_mem _ member)]
    exact refuses_dispose cache (different entry List.mem_cons_self)

/-- Entries of different names are disposed of independently of each other. -/
theorem total_foldl_dispose (distinct : (aside.map Entry.fingerprint).Nodup) :
    (aside.foldl dispose cache).total = cache.total - freed cache.folder aside := by
  induction aside generalizing cache with
  | nil => rfl
  | cons entry rest inductionHypothesis =>
    obtain ⟨apart, distinctRest⟩ := List.nodup_cons.mp distinct
    have alike : freed (cache.dispose entry).folder rest = freed cache.folder rest := by
      apply freed_congr
      intro other member
      apply refuses_dispose cache
      intro same
      exact apart (same ▸ List.mem_map_of_mem member)
    rw [List.foldl_cons, inductionHypothesis distinctRest, total_dispose, alike,
      freed_cons cache.folder entry rest, Nat.sub_sub]

/-! ## Orphans -/

/-- The total when orphans have been tried again, which they are only over the
budget. -/
def settled (cache : Cache) : Nat :=
  if cache.total ≤ cache.budget then cache.total
  else cache.total - freed cache.folder cache.orphans

private theorem Sound.total_retryOrphans (sound : cache.Sound) :
    cache.retryOrphans.total = cache.settled := by
  have distinct := sound.balanced.distinct
  rw [List.map_append] at distinct
  unfold Cache.retryOrphans settled
  split
  · rfl
  · exact total_foldl_dispose (List.nodup_append.mp distinct).2.1

/-- Trying orphans again makes the files of entries neither easier nor harder to
unlink. -/
theorem Sound.refuses_retryOrphans (sound : cache.Sound) (member : entry ∈ cache.entries) :
    cache.retryOrphans.folder.Refuses entry.file ↔ cache.folder.Refuses entry.file := by
  rcases retryOrphans_eq cache with same | retried
  · rw [same]
  · rw [retried]
    exact refuses_foldl_dispose fun orphan orphaned =>
      (sound.orphan_fingerprint_ne member orphaned).symm

/-! ## The shortest beginning that is enough -/

/-- The shortest beginning of an order after whose removal a total fits a budget,
or all of the order if no beginning is enough. -/
structure ShortestToFit (folder : Folder) (total budget : Nat) (order segment : List Entry) :
    Prop where
  initial : segment <+: order
  enough : segment = order ∨ total ≤ budget + freed folder segment
  scant : ∀ shorter, shorter <+: order → shorter.length < segment.length →
    budget + freed folder shorter < total

namespace ShortestToFit

private theorem nil (order : List Entry) (enough : order = [] ∨ total ≤ budget) :
    ShortestToFit folder total budget order [] where
  initial := List.nil_prefix
  enough := enough.imp Eq.symm Nat.le_add_right_of_le
  scant := fun _ _ short => absurd short (Nat.not_lt_zero _)

private theorem cons (exceeded : ¬ total ≤ budget)
    (shortest : ShortestToFit folder (total - freed folder [entry]) budget order segment) :
    ShortestToFit folder total budget (entry :: order) (entry :: segment) where
  initial := List.cons_prefix_cons.mpr ⟨rfl, shortest.initial⟩
  enough := by
    refine shortest.enough.imp (congrArg (entry :: ·)) ?_
    intro enough
    rw [freed_cons]
    omega
  scant := by
    intro shorter initial short
    rcases List.prefix_cons_iff.mp initial with rfl | ⟨tail, rfl, initialTail⟩
    · simp only [freed, List.map_nil, List.sum_nil]
      omega
    · have scant := shortest.scant tail initialTail (Nat.lt_of_succ_lt_succ short)
      rw [freed_cons]
      omega

private theorem congr (shortest : ShortestToFit changed total budget order segment)
    (alike : ∀ entry ∈ order, changed.Refuses entry.file ↔ folder.Refuses entry.file) :
    ShortestToFit folder total budget order segment := by
  have same {part : List Entry} (initial : part <+: order) :
      freed changed part = freed folder part :=
    freed_congr fun entry member => alike entry (initial.subset member)
  refine ⟨shortest.initial, ?_, ?_⟩
  · rw [← same shortest.initial]
    exact shortest.enough
  · intro shorter initial short
    rw [← same initial]
    exact shortest.scant shorter initial short

end ShortestToFit

private theorem filter_evictable_of_held {after : Cache} (same : after.held = cache.held)
    (order : List Entry) :
    (order.filter fun entry => after.Evictable keep entry) =
      order.filter fun entry => cache.Evictable keep entry := by
  apply List.filter_congr
  intro entry _
  rw [decide_eq_decide, Evictable, Evictable, same]

/-- An eviction in order takes the shortest beginning that is enough of those
that may be evicted. -/
theorem exists_shortest (keep : Fingerprint) (order : List Entry) (cache : Cache)
    (distinct : (order.map Entry.fingerprint).Nodup) :
    ∃ victims, ShortestToFit cache.folder cache.total cache.budget
        (order.filter fun entry => cache.Evictable keep entry) victims ∧
      evictInOrder keep order cache =
        victims.foldl dispose { cache with entries := cache.entries.diff victims } := by
  induction order generalizing cache with
  | nil => exact ⟨[], ShortestToFit.nil _ (Or.inl rfl), rfl⟩
  | cons entry later inductionHypothesis =>
    obtain ⟨apart, distinctLater⟩ := List.nodup_cons.mp distinct
    unfold evictInOrder
    by_cases fits : cache.total ≤ cache.budget
    · rw [if_pos fits]
      exact ⟨[], ShortestToFit.nil _ (Or.inr fits), rfl⟩
    · rw [if_neg fits]
      by_cases stays : entry.fingerprint = keep ∨ entry ∈ cache.held
      · have spared : ¬ cache.Evictable keep entry := fun evictable =>
          stays.elim evictable.1 evictable.2
        rw [if_pos stays, List.filter_cons_of_neg (by simpa using spared)]
        exact inductionHypothesis cache distinctLater
      · have evictable : cache.Evictable keep entry := not_or.mp stays
        obtain ⟨victims, shortest, evicted⟩ := inductionHypothesis
          (dispose { cache with entries := cache.entries.erase entry } entry) distinctLater
        -- What may be evicted, and what it frees, does not depend on what is gone already.
        have within : (dispose { cache with entries := cache.entries.erase entry } entry).budget =
            cache.budget := foldl_dispose_budget [entry] _
        have unlinkable : ∀ other ∈ later.filter fun other => cache.Evictable keep other,
            (dispose { cache with entries := cache.entries.erase entry } entry).folder.Refuses
              other.file ↔ cache.folder.Refuses other.file := by
          intro other member
          apply refuses_dispose { cache with entries := cache.entries.erase entry }
          intro same
          exact apart (same ▸ List.mem_map_of_mem (List.mem_of_mem_filter member))
        rw [filter_evictable_of_held (dispose_held _ entry), within, total_dispose] at shortest
        refine ⟨entry :: victims, ?_, ?_⟩
        · rw [List.filter_cons_of_pos (by simpa using evictable)]
          exact (shortest.congr unlinkable).cons fits
        · rw [if_neg stays, evicted, List.foldl_cons, List.diff_cons]
          congr 1
          rw [dispose_eq, dispose_eq]
          split <;> rfl

/-- Making room evicts the shortest beginning that is enough of the entries that
may be evicted, the last of them first, and leaves all others as they stood. -/
theorem Sound.exists_shortest (sound : cache.Sound) (keep : Fingerprint) :
    ∃ victims, ShortestToFit cache.folder cache.settled cache.budget
        (cache.entries.reverse.filter fun entry => cache.Evictable keep entry) victims ∧
      (cache.evict keep).entries = cache.entries.filter (· ∉ victims) ∧
      (cache.evict keep).total = cache.settled - freed cache.folder victims := by
  have distinct : (cache.entries.reverse.map Entry.fingerprint).Nodup := by
    have distinct := sound.balanced.distinct
    rw [List.map_append] at distinct
    rw [List.map_reverse]
    exact List.nodup_reverse.mpr (List.nodup_append.mp distinct).1
  obtain ⟨victims, shortest, evicted⟩ :=
    Cache.exists_shortest keep cache.entries.reverse cache.retryOrphans distinct
  rw [filter_evictable_of_held (retryOrphans_held cache), sound.total_retryOrphans,
    retryOrphans_budget] at shortest
  have unlinkable : ∀ entry ∈ cache.entries.reverse.filter fun entry =>
      cache.Evictable keep entry,
      cache.retryOrphans.folder.Refuses entry.file ↔ cache.folder.Refuses entry.file :=
    fun entry member => sound.refuses_retryOrphans
      (List.mem_reverse.mp (List.mem_of_mem_filter member))
  have settledShortest := shortest.congr unlinkable
  have among : victims.Sublist cache.entries.reverse :=
    settledShortest.initial.sublist.trans List.filter_sublist
  refine ⟨victims, settledShortest, ?_, ?_⟩
  · unfold Cache.evict
    rw [retryOrphans_entries, evicted, foldl_dispose_entries]
    show cache.retryOrphans.entries.diff victims = _
    rw [retryOrphans_entries]
    exact sound.entries_nodup.sdiff_eq_filter
  · unfold Cache.evict
    rw [retryOrphans_entries, evicted, total_foldl_dispose (distinct.sublist (among.map _))]
    show cache.retryOrphans.total - freed cache.retryOrphans.folder victims = _
    rw [sound.total_retryOrphans, freed_congr fun entry member =>
      unlinkable entry (settledShortest.initial.subset member)]

/-- An insertion evicts the shortest beginning that is enough of the entries on
which no handle is held, the last of them first. -/
theorem Sound.exists_shortest_of_enter (sound : cache.Sound) {fingerprint : Fingerprint}
    (absent : cache.find? fingerprint = none) (folder : Folder) (size : Nat) :
    let entered := cache.enter folder fingerprint size
    ∃ victims, ShortestToFit folder entered.settled cache.budget
        (cache.entries.reverse.filter fun entry => cache.Evictable fingerprint entry) victims ∧
      (entered.evict fingerprint).entries =
        cache.nextEntry fingerprint size :: cache.entries.filter (· ∉ victims) ∧
      (entered.evict fingerprint).total = entered.settled - freed folder victims := by
  intro entered
  obtain ⟨victims, shortest, entries, total⟩ :=
    (sound.enter absent folder size).exists_shortest fingerprint
  have spared : ¬ cache.Evictable fingerprint (cache.nextEntry fingerprint size) :=
    fun evictable => evictable.1 rfl
  rw [enter_folder, enter_budget, enter_entries,
    filter_evictable_of_held (enter_held cache folder fingerprint size), List.reverse_cons,
    List.filter_append, List.filter_cons_of_neg (by simpa using spared), List.filter_nil,
    List.append_nil] at shortest
  rw [enter_folder] at total
  refine ⟨victims, shortest, ?_, total⟩
  have stays : cache.nextEntry fingerprint size ∉ victims := by
    intro member
    have evictable := (List.mem_filter.mp (shortest.initial.subset member)).2
    exact spared (by simpa using evictable)
  rw [entries, enter_entries]
  exact List.filter_cons_of_pos (by simpa using stays)

/-- Whatever has happened to a cache and its folder, and whichever files cannot be
unlinked: an insertion under a name that is not cached takes the entries of other
names on which no handle is held in the order of their last uses, and evicts the
shortest beginning of them that has to go for the total to fit the budget.  The
total is that after orphans have been tried again, and an entry whose file cannot
be unlinked takes nothing off it.  All other entries stay, in their order, behind
the new one. -/
theorem least_recently_used_go_first (budget : Nat) (keepsFolder : Bool) (history : List Step)
    (fingerprint : Fingerprint) (serial : Nat) (entry : Entry) (cache after : Cache)
    (reached : run history (empty budget keepsFolder) = cache)
    (absent : cache.find? fingerprint = none)
    (inserted : cache.insert fingerprint (.temporary serial) = (.ok entry, after)) :
    ∃ folder entered order victims,
      cache.folder.rename (.temporary serial) (.stored fingerprint) = .ok folder ∧
      entered = cache.enter folder fingerprint (cache.folder.sizeOf (.temporary serial)) ∧
      Recent (uses history (empty budget keepsFolder)) order.reverse ∧
      (∀ other, other ∈ order ↔
        other ∈ cache.entries ∧ other.fingerprint ≠ fingerprint ∧ other ∉ cache.held) ∧
      ShortestToFit folder entered.settled budget order victims ∧
      after.entries = entry :: cache.entries.filter (· ∉ victims) ∧
      after.total = entered.settled - freed folder victims := by
  have sound : cache.Sound := by
    rw [← reached]
    exact sound_run_empty budget keepsFolder history
  have within : cache.budget = budget := by
    rw [← reached, run_budget]
    rfl
  have recent : Recent (uses history (empty budget keepsFolder)) cache.entries := by
    rw [← reached]
    exact recent_run_empty budget keepsFolder history
  obtain ⟨folder, renamed, rfl, rfl⟩ := eq_of_insert_ok absent inserted
  obtain ⟨victims, shortest, entries, total⟩ := sound.exists_shortest_of_enter absent folder
    (cache.folder.sizeOf (.temporary serial))
  rw [within] at shortest
  refine ⟨folder, _, _, victims, renamed, rfl, ?_, ?_, shortest, entries, total⟩
  · rw [← List.filter_reverse, List.reverse_reverse]
    exact recent.sublist List.filter_sublist
  · intro other
    rw [List.mem_filter, List.mem_reverse, decide_eq_true_iff]
    rfl

/-! ### An entry that is found, one that is inserted again, and one that is stuck -/

/-- Three files are inserted.  Then the first is looked up, the third is inserted
again, the second is only asked for, and its file is locked. -/
def visits : List Step :=
  [.act .create, .act (.fill 1 [1, 1]), .act (.insert (repeated 0) 1),
    .act (.drop ⟨0, repeated 0, 2⟩),
    .act .create, .act (.fill 1 [2, 2]), .act (.insert (repeated 1) 1),
    .act (.drop ⟨1, repeated 1, 2⟩),
    .act .create, .act (.fill 1 [3, 3]), .act (.insert (repeated 2) 1),
    .act (.drop ⟨2, repeated 2, 2⟩),
    .act (.lookUp (repeated 0)), .act (.drop ⟨0, repeated 0, 2⟩),
    .act .create, .act (.fill 1 [3, 3]), .act (.insert (repeated 2) 1),
    .act (.drop ⟨2, repeated 2, 2⟩),
    .act (.ask (repeated 1)), .lock [.stored (repeated 1)],
    .act .create, .act (.fill 1 [4, 4, 4, 4])]

/-- The second entry goes first and frees nothing, the first one goes next, and
the third one stays. -/
theorem stuck_entry_goes_first :
    (run visits (empty 8 false)).find? (repeated 3) = none ∧
      ((run visits (empty 8 false)).insert (repeated 3) (.temporary 1)).1 =
        .ok ⟨3, repeated 3, 4⟩ ∧
      ((run visits (empty 8 false)).insert (repeated 3) (.temporary 1)).2.entries =
        [⟨3, repeated 3, 4⟩, ⟨2, repeated 2, 2⟩] ∧
      ∃ folder total order victims,
        Recent [repeated 0, repeated 1, repeated 2, repeated 0, repeated 2] order.reverse ∧
        ShortestToFit folder total 8 order victims ∧
        ⟨0, repeated 0, 2⟩ ∈ victims ∧ ⟨1, repeated 1, 2⟩ ∈ victims := by
  have absent : (run visits (empty 8 false)).find? (repeated 3) = none := by decide +kernel
  have given : ((run visits (empty 8 false)).insert (repeated 3) (.temporary 1)).1 =
      .ok ⟨3, repeated 3, 4⟩ := by
    decide +kernel
  have left : ((run visits (empty 8 false)).insert (repeated 3) (.temporary 1)).2.entries =
      [⟨3, repeated 3, 4⟩, ⟨2, repeated 2, 2⟩] := by
    decide +kernel
  have used : uses visits (empty 8 false) =
      [repeated 0, repeated 1, repeated 2, repeated 0, repeated 2] := by
    decide +kernel
  have before : (run visits (empty 8 false)).entries =
      [⟨2, repeated 2, 2⟩, ⟨0, repeated 0, 2⟩, ⟨1, repeated 1, 2⟩] := by
    decide +kernel
  obtain ⟨folder, entered, order, victims, _, _, recent, _, shortest, entries, _⟩ :=
    least_recently_used_go_first 8 false visits (repeated 3) 1 ⟨3, repeated 3, 4⟩ _
      ((run visits (empty 8 false)).insert (repeated 3) (.temporary 1)).2 rfl absent
      (Prod.ext given rfl)
  rw [used] at recent
  rw [left, before] at entries
  have stayed := (List.cons.inj entries).2
  have evicted {entry : Entry}
      (member : entry ∈ [⟨2, repeated 2, 2⟩, ⟨0, repeated 0, 2⟩, ⟨1, repeated 1, 2⟩])
      (gone : entry ∉ [⟨2, repeated 2, 2⟩]) : entry ∈ victims := by
    by_contra stays
    rw [stayed] at gone
    exact gone (List.mem_filter.mpr ⟨member, by simpa using stays⟩)
  exact ⟨absent, given, left, folder, _, order, victims, recent, shortest,
    evicted (by decide +kernel) (by decide +kernel),
    evicted (by decide +kernel) (by decide +kernel)⟩

end ContentStore.Cache
