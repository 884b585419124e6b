import ContentStore.Proofs.Cache.Books

/-!
Contract: what evictions do to a cache.

Owns:
- `dispose_eq`, by which disposing of an entry either frees it or orphans it;
- that books stay balanced when entries are set aside and then disposed of one
  by one;
- `exists_victims`, by which an eviction sets aside entries that are neither
  held nor to be kept, and disposes of them;
- what making room leaves: the entries that are kept, and their files.

Does not own: how many entries an eviction takes.
-/

namespace ContentStore.Cache

variable {cache : Cache} {entry other : Entry} {aside : List Entry} {keep : Fingerprint}
  {name : FileName}

/-! ## Disposing of entries -/

/-- An entry that is disposed of is an orphan if its file cannot be unlinked,
and otherwise both its file and its size are gone. -/
theorem dispose_eq (cache : Cache) (entry : Entry) :
    cache.dispose entry =
      if cache.folder.Refuses entry.file then { cache with orphans := cache.orphans ++ [entry] }
      else { cache with
        folder := cache.folder.erase entry.file
        total := cache.total - entry.size } := by
  unfold dispose
  rw [Folder.clear?_eq]
  by_cases refused : cache.folder.Refuses entry.file <;> simp [refused]

@[simp]
theorem dispose_entries (cache : Cache) (entry : Entry) :
    (cache.dispose entry).entries = cache.entries := by
  rw [dispose_eq]
  split <;> rfl

@[simp]
theorem dispose_held (cache : Cache) (entry : Entry) : (cache.dispose entry).held = cache.held := by
  rw [dispose_eq]
  split <;> rfl

/-- What disposing of any one entry keeps, disposing of many keeps. -/
theorem foldl_dispose_keeps {Value : Type} (view : Cache → Value)
    (keeps : ∀ (cache : Cache) (entry : Entry), view (cache.dispose entry) = view cache)
    (aside : List Entry) (cache : Cache) : view (aside.foldl dispose cache) = view cache := by
  induction aside generalizing cache with
  | nil => rfl
  | cons entry rest inductionHypothesis =>
    rw [List.foldl_cons, inductionHypothesis, keeps]

@[simp]
theorem foldl_dispose_entries (aside : List Entry) (cache : Cache) :
    (aside.foldl dispose cache).entries = cache.entries :=
  foldl_dispose_keeps Cache.entries dispose_entries aside cache

@[simp]
private theorem foldl_dispose_held (aside : List Entry) (cache : Cache) :
    (aside.foldl dispose cache).held = cache.held :=
  foldl_dispose_keeps Cache.held dispose_held aside cache

@[simp]
private theorem foldl_dispose_medium (aside : List Entry) (cache : Cache) :
    (aside.foldl dispose cache).folder.medium = cache.folder.medium := by
  apply foldl_dispose_keeps fun cache => cache.folder.medium
  intro cache entry
  rw [dispose_eq]
  split <;> rfl

@[simp]
theorem foldl_dispose_budget (aside : List Entry) (cache : Cache) :
    (aside.foldl dispose cache).budget = cache.budget := by
  apply foldl_dispose_keeps Cache.budget
  intro cache entry
  rw [dispose_eq]
  split <;> rfl

/-- Disposing of entries whose files can be unlinked takes their names out, and
leaves no orphans behind. -/
theorem foldl_dispose_of_yielding
    (yielding : ∀ entry ∈ aside, ¬ cache.folder.Refuses entry.file) :
    (aside.foldl dispose cache).orphans = cache.orphans ∧
      (aside.foldl dispose cache).folder =
        (aside.map Entry.file).foldl Folder.erase cache.folder := by
  induction aside generalizing cache with
  | nil => exact ⟨rfl, rfl⟩
  | cons entry rest inductionHypothesis =>
    have disposed : cache.dispose entry = { cache with
        folder := cache.folder.erase entry.file
        total := cache.total - entry.size } := by
      rw [dispose_eq, if_neg (yielding entry List.mem_cons_self)]
    rw [List.foldl_cons, disposed]
    apply inductionHypothesis
    intro other member refused
    exact yielding other (List.mem_cons_of_mem _ member) (Folder.refuses_of_erase refused)

/-- Disposing of entries changes nothing under names that they do not have. -/
theorem item?_foldl_dispose (different : ∀ entry ∈ aside, name ≠ entry.file) :
    (aside.foldl dispose cache).folder.item? name = cache.folder.item? name := by
  induction aside generalizing cache with
  | nil => rfl
  | cons entry rest inductionHypothesis =>
    rw [List.foldl_cons,
      inductionHypothesis fun other member => different other (List.mem_cons_of_mem _ member),
      dispose_eq]
    split
    · rfl
    · exact Folder.item?_erase_of_ne _ (different entry List.mem_cons_self)

/-- Books from which entries have been set aside stay balanced when one of these
is disposed of. -/
theorem balanced_dispose
    (balanced : Balanced (entry :: aside ++ (cache.entries ++ cache.orphans)) cache.total
      cache.issued) :
    Balanced (aside ++ ((cache.dispose entry).entries ++ (cache.dispose entry).orphans))
      (cache.dispose entry).total (cache.dispose entry).issued := by
  rw [dispose_eq]
  split
  · -- The entry goes from those set aside to the end of the orphans.
    apply balanced.of_perm
    rw [List.cons_append, ← List.append_assoc, ← List.append_assoc, ← List.append_assoc]
    exact (List.perm_append_singleton _ _).symm
  · exact balanced.withdraw

/-- Books from which entries have been set aside are balanced when all of these
are disposed of. -/
theorem balanced_foldl_dispose
    (balanced : Balanced (aside ++ (cache.entries ++ cache.orphans)) cache.total cache.issued) :
    Balanced ((aside.foldl dispose cache).entries ++ (aside.foldl dispose cache).orphans)
      (aside.foldl dispose cache).total (aside.foldl dispose cache).issued := by
  induction aside generalizing cache with
  | nil => exact balanced
  | cons entry rest inductionHypothesis =>
    rw [List.foldl_cons]
    exact inductionHypothesis (balanced_dispose balanced)

/-! ## Trying orphans again -/

theorem retryOrphans_eq (cache : Cache) :
    cache.retryOrphans = cache ∨
      cache.retryOrphans = cache.orphans.foldl dispose { cache with orphans := [] } := by
  unfold retryOrphans
  split
  · exact Or.inl rfl
  · exact Or.inr rfl

@[simp]
theorem retryOrphans_entries (cache : Cache) : cache.retryOrphans.entries = cache.entries := by
  rcases retryOrphans_eq cache with same | retried
  · rw [same]
  · rw [retried, foldl_dispose_entries]

@[simp]
theorem retryOrphans_held (cache : Cache) : cache.retryOrphans.held = cache.held := by
  rcases retryOrphans_eq cache with same | retried
  · rw [same]
  · rw [retried, foldl_dispose_held]

@[simp]
private theorem retryOrphans_medium (cache : Cache) :
    cache.retryOrphans.folder.medium = cache.folder.medium := by
  rcases retryOrphans_eq cache with same | retried
  · rw [same]
  · rw [retried, foldl_dispose_medium]

@[simp]
theorem retryOrphans_budget (cache : Cache) : cache.retryOrphans.budget = cache.budget := by
  rcases retryOrphans_eq cache with same | retried
  · rw [same]
  · rw [retried, foldl_dispose_budget]

/-- Without orphans there is nothing to try again. -/
theorem retryOrphans_of_nil (noOrphans : cache.orphans = []) : cache.retryOrphans = cache := by
  rcases retryOrphans_eq cache with same | retried
  · exact same
  · rw [retried, noOrphans, List.foldl_nil, ← noOrphans]

/-- Trying orphans again keeps a cache sound. -/
theorem Sound.retryOrphans (sound : cache.Sound) : cache.retryOrphans.Sound := by
  rcases retryOrphans_eq cache with same | retried
  · rw [same]
    exact sound
  · constructor
    · rw [retried]
      apply balanced_foldl_dispose
      rw [List.append_nil]
      exact sound.balanced.of_perm List.perm_append_comm
    · simpa using sound.pinned

/-- Trying orphans again leaves the files of entries alone. -/
theorem Sound.item?_retryOrphans (sound : cache.Sound) (member : entry ∈ cache.entries) :
    cache.retryOrphans.folder.item? entry.file = cache.folder.item? entry.file := by
  rcases retryOrphans_eq cache with same | retried
  · rw [same]
  · rw [retried]
    apply item?_foldl_dispose
    intro orphan orphaned sameFile
    exact sound.orphan_fingerprint_ne member orphaned (FileName.stored.inj sameFile).symm

/-! ## Evicting entries -/

/-- An eviction sets aside some of the entries in the given order, none of them
held or to be kept, and disposes of them one after the other. -/
theorem exists_victims (keep : Fingerprint) (order : List Entry) (cache : Cache) :
    ∃ victims : List Entry, victims.Sublist order ∧
      (∀ victim ∈ victims, victim.fingerprint ≠ keep ∧ victim ∉ cache.held) ∧
      evictInOrder keep order cache =
        victims.foldl dispose { cache with entries := cache.entries.diff victims } := by
  induction order generalizing cache with
  | nil => exact ⟨[], List.Sublist.refl _, by simp, rfl⟩
  | cons entry later inductionHypothesis =>
    unfold evictInOrder
    split
    · exact ⟨[], List.nil_sublist _, by simp, rfl⟩
    · split
      · obtain ⟨victims, inOrder, free, evicted⟩ := inductionHypothesis cache
        exact ⟨victims, inOrder.cons entry, free, evicted⟩
      · rename_i open_
        rw [not_or] at open_
        obtain ⟨victims, inOrder, free, evicted⟩ :=
          inductionHypothesis (dispose { cache with entries := cache.entries.erase entry } entry)
        refine ⟨entry :: victims, inOrder.cons_cons entry, ?_, ?_⟩
        · intro victim member
          rcases List.mem_cons.mp member with rfl | later
          · exact open_
          · have freeLater := free victim later
            rw [dispose_eq] at freeLater
            split at freeLater <;> exact freeLater
        · rw [evicted, List.foldl_cons, List.diff_cons]
          congr 1
          rw [dispose_eq, dispose_eq]
          split <;> rfl

/-- Making room tries the orphans again, sets some entries aside, none of them
held or to be kept, and disposes of them one after the other. -/
theorem evict_eq (keep : Fingerprint) (cache : Cache) :
    ∃ victims : List Entry, (victims ++ cache.entries.diff victims).Perm cache.entries ∧
      (∀ victim ∈ victims, victim.fingerprint ≠ keep ∧ victim ∉ cache.held) ∧
      cache.evict keep = victims.foldl dispose
        { cache.retryOrphans with entries := cache.entries.diff victims } := by
  obtain ⟨victims, inOrder, free, evicted⟩ :=
    exists_victims keep cache.retryOrphans.entries.reverse cache.retryOrphans
  rw [retryOrphans_entries] at inOrder evicted
  rw [retryOrphans_held] at free
  have contained : victims.Subperm cache.entries :=
    inOrder.subperm.trans (List.reverse_perm _).subperm
  refine ⟨victims, ?_, free, ?_⟩
  · exact List.subperm_append_diff_self_of_count_le (List.subperm_ext_iff.mp contained)
  · unfold evict
    rw [retryOrphans_entries, evicted]

@[simp]
theorem evict_held (keep : Fingerprint) (cache : Cache) :
    (cache.evict keep).held = cache.held := by
  obtain ⟨victims, _, _, evicted⟩ := evict_eq keep cache
  rw [evicted, foldl_dispose_held, retryOrphans_held]

@[simp]
theorem evict_medium (keep : Fingerprint) (cache : Cache) :
    (cache.evict keep).folder.medium = cache.folder.medium := by
  obtain ⟨victims, _, _, evicted⟩ := evict_eq keep cache
  rw [evicted, foldl_dispose_medium, retryOrphans_medium]

@[simp]
theorem evict_budget (keep : Fingerprint) (cache : Cache) :
    (cache.evict keep).budget = cache.budget := by
  obtain ⟨victims, _, _, evicted⟩ := evict_eq keep cache
  rw [evicted, foldl_dispose_budget, retryOrphans_budget]

/-- Making room takes out the names of the entries that it evicts and leaves no
orphans behind, if the file of every entry can be unlinked but for the one to be
kept. -/
theorem evict_of_yielding
    (yielding : ∀ entry ∈ cache.entries, entry.fingerprint ≠ keep →
      ¬ cache.folder.Refuses entry.file)
    (noOrphans : cache.orphans = []) :
    (cache.evict keep).orphans = [] ∧ ∃ victims : List Entry,
      (victims ++ (cache.evict keep).entries).Perm cache.entries ∧
      (cache.evict keep).folder = (victims.map Entry.file).foldl Folder.erase cache.folder := by
  obtain ⟨victims, permutation, free, evicted⟩ := evict_eq keep cache
  rw [retryOrphans_of_nil noOrphans] at evicted
  have yieldingAside : ∀ victim ∈ victims,
      ¬ ({ cache with entries := cache.entries.diff victims } : Cache).folder.Refuses
        victim.file := fun victim among =>
    yielding victim (permutation.subset (List.mem_append_left _ among)) (free victim among).1
  obtain ⟨orphans, folder⟩ := foldl_dispose_of_yielding yieldingAside
  rw [evicted, orphans, folder, foldl_dispose_entries]
  exact ⟨noOrphans, victims, permutation, rfl⟩

/-- Making room adds no entries. -/
theorem mem_of_mem_evict (member : entry ∈ (cache.evict keep).entries) :
    entry ∈ cache.entries := by
  obtain ⟨victims, _, _, evicted⟩ := evict_eq keep cache
  rw [evicted, foldl_dispose_entries] at member
  exact List.diff_subset _ _ member

/-- Making room spares the entry to be kept and all that are held. -/
theorem mem_evict (member : entry ∈ cache.entries)
    (spared : entry.fingerprint = keep ∨ entry ∈ cache.held) :
    entry ∈ (cache.evict keep).entries := by
  obtain ⟨victims, _, free, evicted⟩ := evict_eq keep cache
  rw [evicted, foldl_dispose_entries]
  apply List.mem_diff_of_mem member
  intro victim
  rcases spared with kept | held
  · exact (free entry victim).1 kept
  · exact (free entry victim).2 held

theorem Sound.evict (sound : cache.Sound) (keep : Fingerprint) : (cache.evict keep).Sound := by
  obtain ⟨victims, permutation, _, evicted⟩ := evict_eq keep cache
  constructor
  · rw [evicted]
    apply balanced_foldl_dispose
    have balanced := sound.retryOrphans.balanced
    rw [retryOrphans_entries] at balanced
    apply balanced.of_perm
    rw [← List.append_assoc]
    exact (permutation.append_right _).symm
  · intro entry held
    rw [evict_held] at held
    exact mem_evict (sound.pinned entry held) (Or.inr held)

/-- Making room leaves the files of the entries that stay alone. -/
theorem Sound.item?_evict (sound : cache.Sound) (member : entry ∈ (cache.evict keep).entries) :
    (cache.evict keep).folder.item? entry.file = cache.folder.item? entry.file := by
  have before := mem_of_mem_evict member
  obtain ⟨victims, permutation, _, evicted⟩ := evict_eq keep cache
  rw [evicted, foldl_dispose_entries] at member
  rw [evicted, item?_foldl_dispose, sound.item?_retryOrphans before]
  intro victim among sameFile
  have apart := (List.nodup_append.mp (permutation.nodup_iff.mpr sound.entries_nodup)).2.2
  have victimBefore := permutation.subset (List.mem_append_left _ among)
  exact apart victim among entry member
    (sound.eq_of_fingerprint victimBefore before (FileName.stored.inj sameFile).symm)

end ContentStore.Cache
