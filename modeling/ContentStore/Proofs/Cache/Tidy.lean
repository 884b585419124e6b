import ContentStore.Proofs.Cache.Contents

/-!
Contract: caches whose folder holds the files of the entries and no others.

Owns:
- `Folder.Obliging`, by which every file in the folder, and a file that is
  created next, can be unlinked;
- `Cache.Owning`, by which every name in the folder is that of an entry;
- `Cache.Tidy`, by which a cache is genuine and owning without orphans, and that
  the operations keep it in an obliging folder;
- what the names in the folder of a tidy cache are, and what its files count.

Does not own: which operations a store makes of these.
-/

namespace ContentStore

/-- Nothing stands under a locked name, not even a file that is created next. -/
def Folder.Obliging (folder : Folder) : Prop :=
  ∀ name ∈ folder.locked, (folder.create []).2.item? name = none

instance (folder : Folder) : Decidable folder.Obliging :=
  inferInstanceAs (Decidable (∀ name ∈ folder.locked, (folder.create []).2.item? name = none))

namespace Cache

variable {cache after : Cache} {entry : Entry} {fingerprint keep : Fingerprint} {folder : Folder}
  {content : Bytes} {serial : Nat}

/-! ## Owning -/

/-- Every name in the folder is that of an entry. -/
def Owning (cache : Cache) : Prop :=
  ∀ name, cache.folder.item? name ≠ none → ∃ entry ∈ cache.entries, entry.file = name

/-- Making room takes the files of evicted entries away together with the
entries. -/
theorem Owning.evict (owning : cache.Owning)
    (yielding : ∀ entry ∈ cache.entries, entry.fingerprint ≠ keep →
      ¬ cache.folder.Refuses entry.file)
    (noOrphans : cache.orphans = []) : (cache.evict keep).Owning := by
  obtain ⟨_, victims, permutation, folder⟩ := evict_of_yielding yielding noOrphans
  intro name present
  rw [folder, Folder.item?_foldl_erase] at present
  split at present
  · exact absurd rfl present
  · rename_i kept
    obtain ⟨entry, member, rfl⟩ := owning name present
    refine ⟨entry, ?_, rfl⟩
    rcases List.mem_append.mp (permutation.mem_iff.mpr member) with victim | stays
    · exact absurd (List.mem_map_of_mem victim) kept
    · exact stays

/-- Entering a renamed file makes an entry of the one name that had none. -/
theorem Owning.enter (owning : cache.Owning) {before : Folder}
    (elsewhere : ∀ name, name ≠ .temporary serial → before.item? name = cache.folder.item? name)
    (renamed : before.rename (.temporary serial) (.stored fingerprint) = .ok folder)
    (size : Nat) : (cache.enter folder fingerprint size).Owning := by
  intro name present
  rw [enter_folder] at present
  rw [enter_entries]
  by_cases isTarget : name = .stored fingerprint
  · exact ⟨cache.nextEntry fingerprint size, List.mem_cons_self, isTarget.symm⟩
  · by_cases isSource : name = .temporary serial
    · rw [isSource, Folder.item?_rename_source renamed FileName.noConfusion] at present
      exact absurd rfl present
    · rw [Folder.item?_rename_of_ne renamed isSource isTarget, elsewhere name isSource] at present
      obtain ⟨entry, member, named⟩ := owning name present
      exact ⟨entry, List.mem_cons_of_mem _ member, named⟩

/-! ## Tidy caches -/

/-- The invariant of a cache between operations, when every file can be
unlinked. -/
structure Tidy (cache : Cache) : Prop extends Genuine cache where
  distinct : cache.folder.Distinct
  owning : cache.Owning
  noOrphans : cache.orphans = []

theorem tidy_empty (budget : Nat) (keepsFolder : Bool) : (empty budget keepsFolder).Tidy where
  toGenuine := genuine_empty budget keepsFolder
  distinct := List.nodup_nil
  owning := fun _ present => absurd rfl present
  noOrphans := rfl

namespace Tidy

/-- Every file that stands in the folder, or is created next, can be unlinked. -/
theorem not_refuses_create (tidy : cache.Tidy) (obliging : cache.folder.Obliging)
    (content : Bytes) (name : FileName) : ¬ (cache.folder.create content).2.Refuses name := by
  rintro ⟨present, directory | locked⟩
  · by_cases isNew : name = cache.folder.freshName
    · rw [isNew, show (cache.folder.create content).2.item? cache.folder.freshName =
        some (.file content) from Folder.item?_set_self _ _ _] at directory
      exact absurd directory (by simp)
    · rw [Folder.item?_create_of_ne content isNew] at present directory
      obtain ⟨entry, member, rfl⟩ := tidy.owning name present
      obtain ⟨known, file, _⟩ := tidy.intact entry member
      rw [file] at directory
      exact absurd directory (by simp)
  · have absent := obliging name locked
    by_cases isNew : name = cache.folder.freshName
    · rw [isNew, show (cache.folder.create []).2.item? cache.folder.freshName =
        some (.file []) from Folder.item?_set_self _ _ _] at absent
      exact absurd absent (by simp)
    · rw [Folder.item?_create_of_ne _ isNew] at present absent
      exact present absent

theorem hold (tidy : cache.Tidy) (member : entry ∈ cache.entries) : (cache.hold entry).Tidy :=
  ⟨tidy.toGenuine.hold member, tidy.distinct, tidy.owning, tidy.noOrphans⟩

theorem release (tidy : cache.Tidy) (entry : Entry) : (cache.release entry).Tidy :=
  ⟨tidy.toGenuine.release entry, tidy.distinct, tidy.owning, tidy.noOrphans⟩

private theorem refresh_hold (tidy : cache.Tidy) (member : entry ∈ cache.entries) :
    ((cache.refresh entry).hold entry).Tidy where
  toGenuine := tidy.toGenuine.refresh_hold member
  distinct := tidy.distinct
  owning := by
    intro name present
    obtain ⟨other, among, named⟩ := tidy.owning name present
    exact ⟨other, (mem_refresh member).mpr among, named⟩
  noOrphans := tidy.noOrphans

theorem get? (tidy : cache.Tidy) (fingerprint : Fingerprint) : (cache.get? fingerprint).2.Tidy := by
  cases found : cache.find? fingerprint with
  | none =>
    rw [get?_of_absent found]
    exact tidy
  | some entry =>
    rw [get?_of_cached found]
    exact tidy.refresh_hold (List.mem_of_find?_eq_some found)

/-- A temporary file that is discarded leaves nothing behind. -/
theorem create_discard (tidy : cache.Tidy) (obliging : cache.folder.Obliging) (content : Bytes) :
    { cache with
      folder := (cache.folder.create content).2.discard (cache.folder.create content).1 }.Tidy := by
  have same : (cache.folder.create content).2.discard (cache.folder.create content).1 =
      cache.folder :=
    Folder.create_discard_eq content (tidy.not_refuses_create obliging content _)
  rw [same]
  exact tidy

/-- However the insertion of a new file ends, the file is gone or has become that
of an entry. -/
theorem insert_created (tidy : cache.Tidy) (obliging : cache.folder.Obliging) (content : Bytes) :
    ({ cache with folder := (cache.folder.create content).2 }.insert
      (Fingerprint.ofContent content) (cache.folder.create content).1).2.Tidy := by
  have genuine := (tidy.toGenuine.insert_created content).genuine
  have discarded := tidy.create_discard obliging content
  have yielding := tidy.not_refuses_create obliging content
  rcases insert_cases { cache with folder := (cache.folder.create content).2 }
      (Fingerprint.ofContent content) (cache.folder.create content).1 with
    ⟨entry, found, inserted⟩ | ⟨kind, absent, inserted⟩ |
      ⟨folder, size, absent, renamed, _, inserted⟩
  · rw [inserted]
    exact discarded.refresh_hold (List.mem_of_find?_eq_some found)
  · rw [inserted]
    exact discarded
  · rw [inserted] at genuine ⊢
    have owning : ({ cache with folder := (cache.folder.create content).2 }.enter folder
        (Fingerprint.ofContent content) size).Owning := by
      have entered := tidy.owning.enter (fun _ => Folder.item?_create_of_ne content) renamed size
      intro name present
      rw [enter_folder] at present
      have among := entered name (by rwa [enter_folder])
      rw [enter_entries] at among ⊢
      exact among
    have unrefused : ∀ entry ∈ ({ cache with folder := (cache.folder.create content).2 }.enter
        folder (Fingerprint.ofContent content) size).entries,
        entry.fingerprint ≠ Fingerprint.ofContent content →
          ¬ ({ cache with folder := (cache.folder.create content).2 }.enter folder
            (Fingerprint.ofContent content) size).folder.Refuses entry.file := by
      intro entry _ different
      have notTarget : entry.file ≠ .stored (Fingerprint.ofContent content) :=
        fun same => different (FileName.stored.inj same)
      rw [enter_folder, Folder.refuses_rename_of_ne renamed FileName.noConfusion notTarget]
      exact yielding entry.file
    have noOrphans := enter_orphans
      (show ({ cache with folder := (cache.folder.create content).2 } : Cache).orphans = [] from
        tidy.noOrphans) folder (Fingerprint.ofContent content) size
    obtain ⟨orphans, victims, _, evicted⟩ := evict_of_yielding unrefused noOrphans
    refine ⟨genuine, ?_, owning.evict unrefused noOrphans, orphans⟩
    show Folder.Distinct (Cache.evict _ _).folder
    rw [evicted, enter_folder]
    exact ((tidy.distinct.create content).rename renamed).foldl_erase _

/-! ## What is in the folder -/

/-- What stands under a name in the folder is the file of an entry, with the size
that the entry tells. -/
theorem exists_entry (tidy : cache.Tidy) {item : FileName × FolderItem}
    (member : item ∈ cache.folder.items) :
    ∃ entry ∈ cache.entries, ∃ content, item = (entry.file, .file content) ∧
      content.length = entry.size := by
  obtain ⟨name, kept⟩ := item
  have listed := tidy.distinct.item?_eq_some_of_mem member
  obtain ⟨entry, among, rfl⟩ := tidy.owning name (by simp [listed])
  obtain ⟨content, file, _, measured⟩ := tidy.intact entry among
  rw [listed] at file
  obtain rfl := Option.some.inj file
  exact ⟨entry, among, content, rfl, measured⟩

private theorem items_perm (tidy : cache.Tidy) :
    (cache.folder.items.map Prod.fst).Perm (cache.entries.map Entry.file) := by
  have entriesOnce : (cache.entries.map Entry.file).Nodup := by
    apply tidy.entries_nodup.map_on
    intro entry member other otherMember same
    exact tidy.eq_of_fingerprint member otherMember (FileName.stored.inj same)
  apply (List.perm_ext_iff_of_nodup tidy.distinct entriesOnce).mpr
  intro name
  rw [Folder.mem_names_iff, List.mem_map]
  constructor
  · exact tidy.owning name
  · rintro ⟨entry, member, rfl⟩
    obtain ⟨content, file, _⟩ := tidy.intact entry member
    simp [file]

/-- A listing of the folder shows the fingerprints of the entries. -/
theorem names_perm (tidy : cache.Tidy) :
    cache.folder.names.Perm (cache.entries.map fun entry => entry.fingerprint.text) := by
  unfold Folder.names
  refine (List.mergeSort_perm _ _).trans ?_
  have texts := tidy.items_perm.map FileName.text
  rw [List.map_map, List.map_map] at texts
  refine List.Perm.trans (List.Perm.of_eq ?_) texts
  -- No directory stands in the folder, so that nothing is shown with a slash.
  apply List.map_congr_left
  intro item member
  obtain ⟨entry, _, content, rfl, _⟩ := tidy.exists_entry member
  rfl

/-- The total is the sum of the sizes of all files in the folder. -/
theorem total_eq (tidy : cache.Tidy) :
    cache.total = (cache.folder.items.map fun item => cache.folder.sizeOf item.1).sum := by
  have sizes : (cache.entries.map Entry.file).map cache.folder.sizeOf =
      cache.entries.map Entry.size := by
    rw [List.map_map]
    apply List.map_congr_left
    intro entry member
    obtain ⟨content, file, _, measured⟩ := tidy.intact entry member
    simp only [Function.comp_apply, Folder.sizeOf, file, measured]
  have counted := tidy.balanced.counted
  rw [tidy.noOrphans, List.append_nil, ← sizes] at counted
  rw [counted, ← (tidy.items_perm.map cache.folder.sizeOf).sum_nat, List.map_map]
  rfl

end Tidy

end Cache

end ContentStore
