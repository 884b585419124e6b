import ContentStore.Proofs.Cache.Eviction

/-!
Contract: what each operation of a cache does to its books and its files.

Owns:
- equations for a look-up and for the three ways in which an insertion ends;
- that every operation keeps a cache sound;
- what an insertion leaves under the names of the entries: the renamed file for
  the one that it adds, and for all others what was there.

Does not own: runs of operations.
-/

namespace ContentStore.Cache

variable {cache after : Cache} {entry other : Entry} {fingerprint : Fingerprint}
  {folder : Folder} {temporary : FileName} {kind : IoKind}

/-! ## Handles and recency -/

/-- The books say nothing of the folder. -/
theorem Sound.withFolder (sound : cache.Sound) (folder : Folder) :
    { cache with folder := folder }.Sound :=
  ⟨sound.balanced, sound.pinned⟩

/-- A handle may be taken on any cached entry. -/
theorem Sound.hold (sound : cache.Sound) (member : entry ∈ cache.entries) :
    (cache.hold entry).Sound where
  balanced := sound.balanced
  pinned := by
    intro other held
    rcases List.mem_cons.mp held with rfl | before
    · exact member
    · exact sound.pinned other before

/-- Letting go of a handle keeps a cache sound. -/
theorem Sound.release (sound : cache.Sound) (entry : Entry) : (cache.release entry).Sound where
  balanced := sound.balanced
  pinned := fun other held => sound.pinned other (List.mem_of_mem_erase held)

/-- An entry that is used stays among the entries, as do all others. -/
theorem mem_refresh (member : entry ∈ cache.entries) :
    other ∈ (cache.refresh entry).entries ↔ other ∈ cache.entries :=
  (List.perm_cons_erase member).mem_iff.symm

theorem Sound.refresh (sound : cache.Sound) (member : entry ∈ cache.entries) :
    (cache.refresh entry).Sound where
  balanced := sound.balanced.of_perm ((List.perm_cons_erase member).append_right _)
  pinned := fun other held => (mem_refresh member).mpr (sound.pinned other held)

/-! ## Looking up -/

theorem get?_of_cached (found : cache.find? fingerprint = some entry) :
    cache.get? fingerprint = (some entry, (cache.refresh entry).hold entry) := by
  unfold get?
  rw [found]

theorem get?_of_absent (absent : cache.find? fingerprint = none) :
    cache.get? fingerprint = (none, cache) := by
  unfold get?
  rw [absent]

theorem Sound.get? (sound : cache.Sound) (fingerprint : Fingerprint) :
    (cache.get? fingerprint).2.Sound := by
  cases found : cache.find? fingerprint with
  | none =>
    rw [get?_of_absent found]
    exact sound
  | some entry =>
    have member := ((sound.find?_eq_some_iff fingerprint).mp found).1
    rw [get?_of_cached found]
    exact (sound.refresh member).hold ((mem_refresh member).mpr member)

/-! ## Entering a renamed file on the books -/

/-- The cache when a file has been renamed to `fingerprint` and its entry is on
the books, and before room is made for it. -/
def enter (cache : Cache) (folder : Folder) (fingerprint : Fingerprint) (size : Nat) : Cache :=
  ((({ cache with folder := folder }).forgetOrphan fingerprint).add fingerprint size).2

def nextEntry (cache : Cache) (fingerprint : Fingerprint) (size : Nat) : Entry :=
  ⟨cache.issued, fingerprint, size⟩

/-- An orphan is forgotten with its size, if one has the name. -/
theorem forgetOrphan_eq (cache : Cache) (fingerprint : Fingerprint) :
    (∃ orphan, orphan ∈ cache.orphans ∧ orphan.fingerprint = fingerprint ∧
      cache.forgetOrphan fingerprint = { cache with
        orphans := cache.orphans.erase orphan
        total := cache.total - orphan.size }) ∨
    (∀ orphan ∈ cache.orphans, orphan.fingerprint ≠ fingerprint) ∧
      cache.forgetOrphan fingerprint = cache := by
  unfold forgetOrphan
  cases found : cache.orphans.find? fun orphan => orphan.fingerprint = fingerprint with
  | some orphan =>
    exact Or.inl ⟨orphan, List.mem_of_find?_eq_some found,
      by simpa using List.find?_some found, rfl⟩
  | none => exact Or.inr ⟨by simpa using found, rfl⟩

@[simp]
private theorem forgetOrphan_issued (cache : Cache) (fingerprint : Fingerprint) :
    (cache.forgetOrphan fingerprint).issued = cache.issued := by
  rcases forgetOrphan_eq cache fingerprint with ⟨orphan, _, _, forgotten⟩ | ⟨_, forgotten⟩ <;>
  rw [forgotten]

@[simp]
theorem enter_entries (cache : Cache) (folder : Folder) (fingerprint : Fingerprint)
    (size : Nat) :
    (cache.enter folder fingerprint size).entries =
      cache.nextEntry fingerprint size :: cache.entries := by
  rcases forgetOrphan_eq { cache with folder := folder } fingerprint with
    ⟨orphan, _, _, forgotten⟩ | ⟨_, forgotten⟩ <;>
  simp [enter, add, nextEntry, forgotten]

@[simp]
theorem enter_held (cache : Cache) (folder : Folder) (fingerprint : Fingerprint) (size : Nat) :
    (cache.enter folder fingerprint size).held = cache.held := by
  rcases forgetOrphan_eq { cache with folder := folder } fingerprint with
    ⟨orphan, _, _, forgotten⟩ | ⟨_, forgotten⟩ <;>
  simp [enter, add, forgotten]

@[simp]
theorem enter_folder (cache : Cache) (folder : Folder) (fingerprint : Fingerprint)
    (size : Nat) : (cache.enter folder fingerprint size).folder = folder := by
  rcases forgetOrphan_eq { cache with folder := folder } fingerprint with
    ⟨orphan, _, _, forgotten⟩ | ⟨_, forgotten⟩ <;>
  simp [enter, add, forgotten]

@[simp]
theorem enter_budget (cache : Cache) (folder : Folder) (fingerprint : Fingerprint) (size : Nat) :
    (cache.enter folder fingerprint size).budget = cache.budget := by
  rcases forgetOrphan_eq { cache with folder := folder } fingerprint with
    ⟨orphan, _, _, forgotten⟩ | ⟨_, forgotten⟩ <;>
  simp [enter, add, forgotten]

/-- Entering a file makes no orphans. -/
theorem enter_orphans (noOrphans : cache.orphans = []) (folder : Folder) (fingerprint : Fingerprint)
    (size : Nat) : (cache.enter folder fingerprint size).orphans = [] := by
  rcases forgetOrphan_eq { cache with folder := folder } fingerprint with
    ⟨orphan, orphaned, _, _⟩ | ⟨_, forgotten⟩
  · rw [show ({ cache with folder := folder } : Cache).orphans = [] from noOrphans] at orphaned
    exact absurd orphaned List.not_mem_nil
  · show (({ cache with folder := folder } : Cache).forgetOrphan fingerprint).orphans = []
    rw [forgotten]
    exact noOrphans

/-- Forgetting the orphan of a name leaves balanced books without that name, if
no entry has it. -/
theorem Sound.forgetOrphan (sound : cache.Sound) (absent : cache.find? fingerprint = none) :
    (cache.forgetOrphan fingerprint).Sound ∧
      ∀ entry ∈ (cache.forgetOrphan fingerprint).entries ++
        (cache.forgetOrphan fingerprint).orphans, entry.fingerprint ≠ fingerprint := by
  have notCached := (find?_eq_none_iff fingerprint).mp absent
  rcases forgetOrphan_eq cache fingerprint with
    ⟨orphan, orphaned, named, forgotten⟩ | ⟨notOrphaned, forgotten⟩
  · have split : (cache.entries ++ cache.orphans).Perm
        (orphan :: (cache.entries ++ cache.orphans.erase orphan)) :=
      ((List.perm_cons_erase orphaned).append_left _).trans List.perm_middle
    have balanced := sound.balanced.of_perm split
    rw [forgotten]
    refine ⟨⟨balanced.withdraw, sound.pinned⟩, ?_⟩
    intro entry member same
    -- The forgotten orphan had the name, and names are distinct.
    have alone := (List.nodup_cons.mp balanced.nodup).1
    have equal := balanced.eq_of_fingerprint (List.mem_cons_of_mem _ member)
      List.mem_cons_self (same.trans named.symm)
    rw [equal] at member
    exact alone member
  · rw [forgotten]
    refine ⟨sound, ?_⟩
    intro entry member
    rcases List.mem_append.mp member with cached | orphaned
    · exact notCached entry cached
    · exact notOrphaned entry orphaned

/-- Entering a file under a fingerprint that is not cached keeps a cache
sound. -/
theorem Sound.enter (sound : cache.Sound) (absent : cache.find? fingerprint = none)
    (folder : Folder) (size : Nat) : (cache.enter folder fingerprint size).Sound := by
  obtain ⟨forgotten, unnamed⟩ := (sound.withFolder folder).forgetOrphan absent
  refine ⟨forgotten.balanced.deposit size unnamed, ?_⟩
  intro entry held
  exact List.mem_cons_of_mem _ (forgotten.pinned entry held)

/-! ## Inserting -/

/-- Inserting under a fingerprint that is cached uses the entry that there is. -/
theorem insert_of_cached (found : cache.find? fingerprint = some entry) :
    cache.insert fingerprint temporary =
      (.ok entry, { (cache.refresh entry).hold entry with
        folder := cache.folder.discard temporary }) := by
  unfold insert
  rw [found]

/-- An insertion whose rename is refused discards the temporary file. -/
theorem insert_of_refused (absent : cache.find? fingerprint = none)
    (refused : cache.folder.rename temporary (.stored fingerprint) = .error kind) :
    cache.insert fingerprint temporary =
      (.error kind, { cache with folder := cache.folder.discard temporary }) := by
  unfold insert
  simp only [absent, refused]

/-- An insertion whose rename succeeds enters the file and makes room. -/
theorem insert_of_renamed (absent : cache.find? fingerprint = none)
    (renamed : cache.folder.rename temporary (.stored fingerprint) = .ok folder) :
    cache.insert fingerprint temporary =
      (.ok (cache.nextEntry fingerprint (cache.folder.sizeOf temporary)),
        ((cache.enter folder fingerprint (cache.folder.sizeOf temporary)).evict fingerprint).hold
          (cache.nextEntry fingerprint (cache.folder.sizeOf temporary))) := by
  unfold insert
  simp only [absent, renamed, enter, add, nextEntry, forgetOrphan_issued]

/-- The three ways in which an insertion ends. -/
theorem insert_cases (cache : Cache) (fingerprint : Fingerprint) (temporary : FileName) :
    (∃ entry, cache.find? fingerprint = some entry ∧
      cache.insert fingerprint temporary =
        (.ok entry, { (cache.refresh entry).hold entry with
          folder := cache.folder.discard temporary })) ∨
    (∃ kind, cache.find? fingerprint = none ∧
      cache.insert fingerprint temporary =
        (.error kind, { cache with folder := cache.folder.discard temporary })) ∨
    ∃ folder size, cache.find? fingerprint = none ∧
      cache.folder.rename temporary (.stored fingerprint) = .ok folder ∧
      size = cache.folder.sizeOf temporary ∧
      cache.insert fingerprint temporary =
        (.ok (cache.nextEntry fingerprint size),
          ((cache.enter folder fingerprint size).evict fingerprint).hold
            (cache.nextEntry fingerprint size)) := by
  cases found : cache.find? fingerprint with
  | some entry => exact Or.inl ⟨entry, rfl, insert_of_cached found⟩
  | none =>
    cases renamed : cache.folder.rename temporary (.stored fingerprint) with
    | error kind => exact Or.inr (Or.inl ⟨kind, rfl, insert_of_refused found renamed⟩)
    | ok folder =>
      exact Or.inr (Or.inr ⟨folder, _, rfl, rfl, rfl, insert_of_renamed found renamed⟩)

/-- An insertion under a name that is not cached succeeds only by renaming. -/
theorem eq_of_insert_ok (absent : cache.find? fingerprint = none)
    (inserted : cache.insert fingerprint temporary = (.ok entry, after)) :
    ∃ folder, cache.folder.rename temporary (.stored fingerprint) = .ok folder ∧
      entry = cache.nextEntry fingerprint (cache.folder.sizeOf temporary) ∧
      after = ((cache.enter folder fingerprint (cache.folder.sizeOf temporary)).evict
        fingerprint).hold entry := by
  cases renamed : cache.folder.rename temporary (.stored fingerprint) with
  | error kind =>
    rw [insert_of_refused absent renamed] at inserted
    exact absurd (Prod.mk.inj inserted).1 (by simp)
  | ok folder =>
    rw [insert_of_renamed absent renamed] at inserted
    obtain ⟨given, left⟩ := Prod.mk.inj inserted
    rw [← Except.ok.inj given]
    exact ⟨folder, rfl, rfl, left.symm⟩

/-- The entry that an insertion adds is still there when room has been made. -/
theorem nextEntry_mem_evict (cache : Cache) (folder : Folder) (fingerprint : Fingerprint)
    (size : Nat) :
    cache.nextEntry fingerprint size ∈
      ((cache.enter folder fingerprint size).evict fingerprint).entries := by
  apply mem_evict _ (Or.inl rfl)
  rw [enter_entries]
  exact List.mem_cons_self

/-- An insertion keeps a cache sound, however it ends. -/
theorem Sound.insert (sound : cache.Sound) (fingerprint : Fingerprint) (temporary : FileName) :
    (cache.insert fingerprint temporary).2.Sound := by
  rcases insert_cases cache fingerprint temporary with
    ⟨entry, found, inserted⟩ | ⟨kind, absent, inserted⟩ |
      ⟨folder, size, absent, renamed, _, inserted⟩ <;>
  rw [inserted]
  · have member := ((sound.find?_eq_some_iff fingerprint).mp found).1
    exact ((sound.refresh member).hold ((mem_refresh member).mpr member)).withFolder _
  · exact sound.withFolder _
  · exact ((sound.enter absent folder size).evict fingerprint).hold
      (nextEntry_mem_evict cache folder fingerprint size)

/-- An insertion takes no entry away on which a handle is held. -/
theorem Sound.mem_insert (sound : cache.Sound) (held : entry ∈ cache.held)
    (fingerprint : Fingerprint) (temporary : FileName) :
    entry ∈ (cache.insert fingerprint temporary).2.entries := by
  have member := sound.pinned entry held
  rcases insert_cases cache fingerprint temporary with
    ⟨found, isFound, inserted⟩ | ⟨kind, absent, inserted⟩ |
      ⟨folder, size, absent, renamed, _, inserted⟩ <;>
  rw [inserted]
  · exact (mem_refresh ((sound.find?_eq_some_iff fingerprint).mp isFound).1).mpr member
  · exact member
  · apply mem_evict _ (Or.inr _)
    · rw [enter_entries]
      exact List.mem_cons_of_mem _ member
    · rw [enter_held]
      exact held

/-! ## Files of entries -/

/-- What an insertion leaves under the name of an entry: if the entry is new,
the temporary file, and otherwise what was there before. -/
theorem Sound.item?_insert (sound : cache.Sound) {serial : Nat}
    (member : entry ∈ (cache.insert fingerprint (.temporary serial)).2.entries) :
    (entry ∈ cache.entries ∧
      (cache.insert fingerprint (.temporary serial)).2.folder.item? entry.file =
        cache.folder.item? entry.file) ∨
    (entry = cache.nextEntry fingerprint (cache.folder.sizeOf (.temporary serial)) ∧
      cache.folder.item? (.temporary serial) ≠ none ∧
      (cache.insert fingerprint (.temporary serial)).2.folder.item? entry.file =
        cache.folder.item? (.temporary serial)) := by
  have other : entry.file ≠ .temporary serial := FileName.noConfusion
  rcases insert_cases cache fingerprint (.temporary serial) with
    ⟨found, isFound, inserted⟩ | ⟨kind, absent, inserted⟩ |
      ⟨folder, size, absent, renamed, rfl, inserted⟩ <;>
  rw [inserted] at member ⊢
  · refine Or.inl ⟨?_, Folder.item?_discard_of_ne _ other⟩
    exact (mem_refresh ((sound.find?_eq_some_iff fingerprint).mp isFound).1).mp member
  · exact Or.inl ⟨member, Folder.item?_discard_of_ne _ other⟩
  · have file := (sound.enter absent folder _).item?_evict member
    have before := mem_of_mem_evict member
    rw [enter_folder] at file
    rw [enter_entries] at before
    rcases List.mem_cons.mp before with rfl | old
    · obtain ⟨item, present, _⟩ := Folder.rename_ok renamed
      refine Or.inr ⟨rfl, by simp [present], ?_⟩
      exact file.trans (Folder.item?_rename_target renamed)
    · refine Or.inl ⟨old, ?_⟩
      have apart := (find?_eq_none_iff fingerprint).mp absent entry old
      exact file.trans
        (Folder.item?_rename_of_ne renamed other fun same => apart (FileName.stored.inj same))

end ContentStore.Cache
