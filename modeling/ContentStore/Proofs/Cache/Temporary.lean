import ContentStore.Proofs.Cache.Budget

/-!
Contract: what becomes of the temporary file that is to be inserted.

Owns:
- `Folder.Discards`, by which one name is gone, if it could be unlinked, and all
  others stand for what they stood for;
- that every insertion takes its temporary file away, and leaves the temporary
  files of others alone;
- that an insertion which adds nothing, because it is refused or because the
  fingerprint is cached, does nothing else to the folder, and no more to the books
  than to use and to hold the entry that there is.

Does not own: insertions that add an entry.
-/

namespace ContentStore

/-! ## Folders in which one name has been discarded -/

/-- Nothing has changed but under one name, and nothing stands there unless it
could not be unlinked. -/
structure Folder.Discards (before : Folder) (name : FileName) (after : Folder) : Prop where
  others : ∀ other, other ≠ name → after.item? other = before.item? other
  gone : ¬ before.Refuses name → after.item? name = none
  locked : after.locked = before.locked
  medium : after.medium = before.medium

private theorem Folder.discards_discard (folder : Folder) (name : FileName) :
    folder.Discards name (folder.discard name) where
  others := fun _ different => item?_discard_of_ne folder different
  gone := by
    intro yielding
    rw [discard_eq, if_neg yielding]
    exact item?_erase_self folder name
  locked := by
    rw [discard_eq]
    split <;> rfl
  medium := discard_medium folder name

namespace Cache

open Fingerprint (repeated)

variable {cache : Cache} {fingerprint : Fingerprint} {serial other : Nat}

/-! ## Temporary files after an insertion -/

/-- Making room is about the files of entries. -/
theorem item?_evict_temporary (keep : Fingerprint) (cache : Cache) (serial : Nat) :
    (cache.evict keep).folder.item? (.temporary serial) =
      cache.folder.item? (.temporary serial) := by
  have untouched (aside : List Entry) (cache : Cache) :
      (aside.foldl dispose cache).folder.item? (.temporary serial) =
        cache.folder.item? (.temporary serial) :=
    item?_foldl_dispose fun _ _ => FileName.noConfusion
  have retried : cache.retryOrphans.folder.item? (.temporary serial) =
      cache.folder.item? (.temporary serial) := by
    rcases retryOrphans_eq cache with same | retried
    · rw [same]
    · rw [retried, untouched]
  obtain ⟨victims, _, _, evicted⟩ := evict_eq keep cache
  rw [evicted, untouched]
  exact retried

/-- An insertion leaves the temporary files of others alone. -/
theorem item?_insert_of_ne (cache : Cache) (fingerprint : Fingerprint)
    (different : other ≠ serial) :
    (cache.insert fingerprint (.temporary serial)).2.folder.item? (.temporary other) =
      cache.folder.item? (.temporary other) := by
  have apart : FileName.temporary other ≠ .temporary serial :=
    fun same => different (FileName.temporary.inj same)
  rcases insert_cases cache fingerprint (.temporary serial) with
    ⟨entry, found, inserted⟩ | ⟨kind, absent, inserted⟩ |
      ⟨folder, size, absent, renamed, _, inserted⟩ <;>
  rw [inserted]
  · exact Folder.item?_discard_of_ne _ apart
  · exact Folder.item?_discard_of_ne _ apart
  · show ((cache.enter folder fingerprint size).evict fingerprint).folder.item? _ = _
    rw [item?_evict_temporary, enter_folder]
    exact Folder.item?_rename_of_ne renamed apart FileName.noConfusion

/-- However an insertion ends, its temporary file is gone, if it can be
unlinked. -/
theorem item?_insert_self (cache : Cache) (fingerprint : Fingerprint)
    (yielding : ¬ cache.folder.Refuses (.temporary serial)) :
    (cache.insert fingerprint (.temporary serial)).2.folder.item? (.temporary serial) = none := by
  rcases insert_cases cache fingerprint (.temporary serial) with
    ⟨entry, found, inserted⟩ | ⟨kind, absent, inserted⟩ |
      ⟨folder, size, absent, renamed, _, inserted⟩ <;>
  rw [inserted]
  · exact (Folder.discards_discard _ _).gone yielding
  · exact (Folder.discards_discard _ _).gone yielding
  · show ((cache.enter folder fingerprint size).evict fingerprint).folder.item? _ = _
    rw [item?_evict_temporary, enter_folder]
    exact Folder.item?_rename_source renamed FileName.noConfusion

/-! ## Insertions that add nothing -/

/-- Whatever has happened to a cache and its folder: an insertion that is refused,
as it is if a directory stands where the file is to go, leaves entries, their order
and sizes, handles, orphans and total as they were; and an insertion under a
fingerprint that is cached gives the entry that there is, whatever the temporary
file contains and even if the budget is exceeded, puts this entry first, and takes
one more handle on it.  Either of them takes the temporary file away, if this can be
unlinked, and changes nothing else in the folder. -/
theorem insertion_that_adds_nothing_is_neutral (budget : Nat) (keepsFolder : Bool)
    (history : List Step) (cache : Cache)
    (reached : run history (empty budget keepsFolder) = cache) (fingerprint : Fingerprint)
    (serial : Nat) :
    (∀ kind after, cache.insert fingerprint (.temporary serial) = (.error kind, after) →
      after = { cache with folder := after.folder } ∧
      cache.folder.Discards (.temporary serial) after.folder) ∧
    (cache.find? fingerprint = none → cache.folder.item? (.temporary serial) ≠ none →
      cache.folder.item? (.stored fingerprint) = some .directory →
      (cache.insert fingerprint (.temporary serial)).1 = .error .isADirectory) ∧
    ∀ entry ∈ cache.entries, entry.fingerprint = fingerprint → ∃ after,
      cache.insert fingerprint (.temporary serial) = (.ok entry, after) ∧
      after = { cache with
        entries := after.entries
        held := after.held
        folder := after.folder } ∧
      after.entries = entry :: cache.entries.filter (· ≠ entry) ∧
      after.held = entry :: cache.held ∧
      cache.folder.Discards (.temporary serial) after.folder := by
  have sound : cache.Sound := by
    rw [← reached]
    exact sound_run_empty budget keepsFolder history
  have discards := cache.folder.discards_discard (.temporary serial)
  refine ⟨?_, ?_, ?_⟩
  · intro kind after refused
    rcases insert_cases cache fingerprint (.temporary serial) with
      ⟨entry, _, inserted⟩ | ⟨cause, _, inserted⟩ | ⟨folder, size, _, _, _, inserted⟩ <;>
    rw [inserted] at refused
    · exact absurd (Prod.mk.inj refused).1 (by simp)
    · rw [← (Prod.mk.inj refused).2]
      exact ⟨rfl, discards⟩
    · exact absurd (Prod.mk.inj refused).1 (by simp)
  · intro absent present directory
    rw [insert_of_refused absent (Folder.rename_of_directory present directory)]
  · intro entry member named
    have found := (sound.find?_eq_some_iff fingerprint).mpr ⟨member, named⟩
    refine ⟨_, insert_of_cached found, rfl, ?_, rfl, discards⟩
    show entry :: cache.entries.erase entry = _
    rw [sound.entries_nodup.erase_eq_filter]
    congr 1
    apply List.filter_congr
    intro other _
    rw [bne, decide_not]
    rfl

/-! ### A file that is too large, a directory in the way, and another content -/

/-- Two files are cached, the second of which exceeds the budget; then others put a
directory under a third name, and a new temporary file has another content. -/
def squeeze : List Step :=
  [.act .create, .act (.fill 1 [1]), .act (.insert (repeated 0) 1),
    .act .create, .act (.fill 1 [2, 2]), .act (.insert (repeated 1) 1),
    .alter ⟨[(.stored (repeated 0), .file [1]), (.stored (repeated 1), .file [2, 2]),
      (.stored (repeated 2), .directory), (.temporary 1, .file [3])], [], Writer.unlimited⟩]

/-- Neither the directory nor the entry that there is gives way to the temporary
file, which is gone in both cases. -/
theorem squeezed_insertions_are_neutral :
    let cache := run squeeze (empty 1 false)
    ((cache.insert (repeated 2) (.temporary 1)).1 = .error .isADirectory ∧
      (cache.insert (repeated 2) (.temporary 1)).2.entries =
        [⟨1, repeated 1, 2⟩, ⟨0, repeated 0, 1⟩] ∧
      (cache.insert (repeated 2) (.temporary 1)).2.total = 3 ∧
      (cache.insert (repeated 2) (.temporary 1)).2.folder.item? (.temporary 1) = none) ∧
    ∃ after, cache.insert (repeated 0) (.temporary 1) = (.ok ⟨0, repeated 0, 1⟩, after) ∧
      after.entries = [⟨0, repeated 0, 1⟩, ⟨1, repeated 1, 2⟩] ∧
      after.held = ⟨0, repeated 0, 1⟩ :: cache.held ∧ after.total = 3 ∧
      after.folder.item? (.stored (repeated 0)) = some (.file [1]) ∧
      after.folder.item? (.temporary 1) = none := by
  intro cache
  have facts : (cache.find? (repeated 2) = none ∧
        cache.folder.item? (.temporary 1) = some (.file [3]) ∧
        cache.folder.item? (.stored (repeated 2)) = some .directory) ∧
      (cache.entries = [⟨1, repeated 1, 2⟩, ⟨0, repeated 0, 1⟩] ∧ cache.total = 3) ∧
      cache.folder.item? (.stored (repeated 0)) = some (.file [1]) ∧
      ¬ cache.folder.Refuses (.temporary 1) := by
    decide +kernel
  obtain ⟨⟨absent, file, directory⟩, ⟨entries, total⟩, content, yielding⟩ := facts
  have present : cache.folder.item? (.temporary 1) ≠ none := by simp [file]
  obtain ⟨refusal, occupied, _⟩ :=
    insertion_that_adds_nothing_is_neutral 1 false squeeze cache rfl (repeated 2) 1
  have refused := occupied absent present directory
  obtain ⟨same, discards⟩ := refusal .isADirectory
    (cache.insert (repeated 2) (.temporary 1)).2 (Prod.ext refused rfl)
  obtain ⟨_, _, duplicate⟩ :=
    insertion_that_adds_nothing_is_neutral 1 false squeeze cache rfl (repeated 0) 1
  obtain ⟨after, inserted, sameBooks, moved, held, discardsToo⟩ :=
    duplicate ⟨0, repeated 0, 1⟩ (by simp [entries]) rfl
  refine ⟨⟨refused, (congrArg Cache.entries same).trans entries,
    (congrArg Cache.total same).trans total, discards.gone yielding⟩, after, inserted, ?_, held,
    (congrArg Cache.total sameBooks).trans total, ?_, discardsToo.gone yielding⟩
  · rw [moved, entries]
    decide +kernel
  · rw [discardsToo.others _ FileName.noConfusion]
    exact content

end Cache

end ContentStore
