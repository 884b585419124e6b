import ContentStore.Proofs.Bucket.Truthful
import ContentStore.Proofs.Cache.Contents

/-!
Contract: caches whose files are copies of what a map holds.

Owns:
- that every operation leaves a folder free of refusals if it finds it so, and that
  a free folder receives whatever a reader yields;
- `Cache.Mirrors`, by which the file of every entry is what a map holds under
  the fingerprint of the entry;
- that an insertion of what the map holds succeeds, and that the entry it gives
  reads as the map says.

Does not own: where the map comes from.
-/

namespace ContentStore.Cache

variable {cache : Cache} {entry : Entry} {contents larger : Contents}
  {fingerprint : Fingerprint} {content : Bytes} {reader : Reader} {kind : IoKind}

/-! ## Free folders -/

private theorem free_dispose (free : cache.folder.Free) (entry : Entry) :
    (cache.dispose entry).folder.Free := by
  rw [dispose_eq, if_neg (free.not_refuses entry.file)]
  exact free.erase entry.file

private theorem free_foldl_dispose (free : cache.folder.Free) (aside : List Entry) :
    (aside.foldl dispose cache).folder.Free := by
  induction aside generalizing cache with
  | nil => exact free
  | cons entry rest inductionHypothesis => exact inductionHypothesis (free_dispose free entry)

private theorem free_evict (free : cache.folder.Free) (keep : Fingerprint) :
    (cache.evict keep).folder.Free := by
  have retried : cache.retryOrphans.folder.Free := by
    rcases retryOrphans_eq cache with same | tried
    · rw [same]
      exact free
    · rw [tried]
      apply free_foldl_dispose
      exact free
  obtain ⟨victims, _, _, evicted⟩ := evict_eq keep cache
  rw [evicted]
  apply free_foldl_dispose
  exact retried

/-- A temporary file can be inserted under any name. -/
theorem insert_of_free (free : cache.folder.Free) {temporary : FileName}
    (file : cache.folder.item? temporary = some (.file content)) (fingerprint : Fingerprint) :
    ∃ entry after, cache.insert fingerprint temporary = (.ok entry, after) ∧ after.folder.Free := by
  cases found : cache.find? fingerprint with
  | some entry => exact ⟨entry, _, insert_of_cached found, free.discard temporary⟩
  | none =>
    obtain ⟨folder, renamed, freeStill⟩ := free.rename (.stored fingerprint) file
    refine ⟨_, _, insert_of_renamed found renamed, free_evict ?_ fingerprint⟩
    rw [enter_folder]
    exact freeStill

/-- A reader that yields a content is received as a new file. -/
theorem receive_of_content (free : cache.folder.Free) (yields : reader.content = (content, none)) :
    cache.receive reader =
      (.ok (Fingerprint.ofContent content, (cache.folder.create content).1),
        { cache with folder := (cache.folder.create content).2 }) := by
  have copied := copyDigest_willing Writer.willing_unlimited reader
  rw [yields, ← free.willing] at copied
  rcases received : cache.receive reader with ⟨_ | ⟨named, file⟩, after⟩
  · have refused := (receive_error received).1
    rw [copied] at refused
    exact absurd refused (by simp)
  · have blank : cache.folder.medium.reached = [] := by rw [free.willing]; rfl
    obtain ⟨_, rfl, rfl, rfl⟩ := receive_ok blank received
    rw [yields]

/-- A reader that fails leaves no more than a temporary file, which is discarded. -/
theorem receive_of_failure (free : cache.folder.Free)
    (fails : reader.content = (content, some kind)) :
    ∃ written, cache.receive reader = (.error kind, { cache with
      folder := (cache.folder.create written).2.discard (cache.folder.create written).1 }) := by
  have copied := copyDigest_willing Writer.willing_unlimited reader
  rw [fails, ← free.willing] at copied
  rcases received : cache.receive reader with ⟨_ | ⟨named, file⟩, after⟩
  · obtain ⟨refused, written, rfl⟩ := receive_error received
    rw [copied] at refused
    rw [← Except.error.inj refused]
    exact ⟨written, rfl⟩
  · have complete := (receive_written received).1
    rw [fails] at complete
    exact absurd complete (by simp)

/-! ## Copies of a map -/

/-- The files of a cache are copies of what a map holds, in a folder that
refuses nothing. -/
structure Mirrors (cache : Cache) (contents : Contents) : Prop extends Genuine cache where
  free : cache.folder.Free
  copied : ∀ entry ∈ cache.entries, ∃ content,
    cache.folder.item? entry.file = some (.file content) ∧
      contents entry.fingerprint = some content

theorem mirrors_empty (budget : Nat) (keepsFolder : Bool) (contents : Contents) :
    (empty budget keepsFolder).Mirrors contents where
  toGenuine := genuine_empty budget keepsFolder
  free := Folder.Free.empty
  copied := by simp [empty]

namespace Mirrors

/-- What a map gains does not matter. -/
theorem mono (mirrors : cache.Mirrors contents)
    (included : ∀ fingerprint content, contents fingerprint = some content →
      larger fingerprint = some content) : cache.Mirrors larger where
  toGenuine := mirrors.toGenuine
  free := mirrors.free
  copied := by
    intro entry member
    obtain ⟨content, file, held⟩ := mirrors.copied entry member
    exact ⟨content, file, included _ content held⟩

/-- Temporary files do not matter. -/
theorem withFolder (mirrors : cache.Mirrors contents) {folder : Folder} (free : folder.Free)
    (same : cache.folder.SameFinal folder) : { cache with folder := folder }.Mirrors contents where
  toGenuine := mirrors.toGenuine.withFolder same
  free := free
  copied := by
    intro entry member
    obtain ⟨content, file, held⟩ := mirrors.copied entry member
    exact ⟨content, (same.item entry.fingerprint).trans file, held⟩

private theorem create (mirrors : cache.Mirrors contents) (content : Bytes) :
    { cache with folder := (cache.folder.create content).2 }.Mirrors contents :=
  mirrors.withFolder (mirrors.free.create content) (Folder.SameFinal.create cache.folder content)

theorem create_discard (mirrors : cache.Mirrors contents) (content : Bytes) :
    { cache with
      folder := (cache.folder.create content).2.discard (cache.folder.create content).1
    }.Mirrors contents :=
  mirrors.withFolder ((mirrors.free.create content).discard _)
    (Folder.SameFinal.create_discard cache.folder content)

theorem hold (mirrors : cache.Mirrors contents) (member : entry ∈ cache.entries) :
    (cache.hold entry).Mirrors contents :=
  ⟨mirrors.toGenuine.hold member, mirrors.free, mirrors.copied⟩

theorem release (mirrors : cache.Mirrors contents) (entry : Entry) :
    (cache.release entry).Mirrors contents :=
  ⟨mirrors.toGenuine.release entry, mirrors.free, mirrors.copied⟩

/-- Every entry reads as the map says. -/
theorem read (mirrors : cache.Mirrors contents) (member : entry ∈ cache.entries) :
    ∃ content, cache.read entry = .ok content ∧ content.length = entry.size ∧
      contents entry.fingerprint = some content := by
  obtain ⟨content, file, held⟩ := mirrors.copied entry member
  obtain ⟨other, otherFile, _, measured⟩ := mirrors.intact entry member
  rw [file] at otherFile
  obtain rfl := FolderItem.file.inj (Option.some.inj otherFile)
  refine ⟨content, ?_, measured, held⟩
  unfold Cache.read Folder.read
  rw [file]

/-- An entry that is found and held reads as the map says. -/
theorem get?_some {after : Cache} (mirrors : cache.Mirrors contents)
    (found : cache.get? fingerprint = (some entry, after)) :
    after.Mirrors contents ∧ entry ∈ after.entries ∧ entry.fingerprint = fingerprint := by
  obtain ⟨genuine, named, held⟩ := mirrors.toGenuine.get?_some found
  have member : entry ∈ after.entries := by
    apply genuine.pinned
    rw [held]
    exact List.mem_cons_self
  cases cached : cache.find? fingerprint with
  | none =>
    rw [get?_of_absent cached] at found
    exact absurd (Prod.mk.inj found).1 (by simp)
  | some other =>
    rw [get?_of_cached cached] at found
    obtain ⟨_, rfl⟩ := Prod.mk.inj found
    have among := ((mirrors.find?_eq_some_iff fingerprint).mp cached).1
    refine ⟨⟨genuine, mirrors.free, ?_⟩, member, named⟩
    intro entry entryMember
    exact mirrors.copied entry ((mem_refresh among).mp entryMember)

/-- Inserting what the map holds succeeds, and the files stay copies. -/
theorem insert {serial : Nat} (mirrors : cache.Mirrors contents)
    (file : cache.folder.item? (.temporary serial) = some (.file content))
    (hashed : Fingerprint.ofContent content = fingerprint)
    (held : contents fingerprint = some content) :
    ∃ entry after, cache.insert fingerprint (.temporary serial) = (.ok entry, after) ∧
      after.Mirrors contents ∧ entry ∈ after.entries ∧ entry.fingerprint = fingerprint := by
  obtain ⟨entry, after, inserted, free⟩ := insert_of_free mirrors.free file fingerprint
  have gives := mirrors.toGenuine.insert file hashed
  rw [inserted] at gives
  obtain ⟨named, handles⟩ := gives.given entry rfl
  refine ⟨entry, after, inserted, ⟨gives.genuine, free, ?_⟩, ?_, named⟩
  · intro other member
    have among : other ∈ (cache.insert fingerprint (.temporary serial)).2.entries := by
      rw [inserted]
      exact member
    have left := mirrors.toSound.item?_insert among
    rw [inserted] at left
    rcases left with ⟨old, kept⟩ | ⟨rfl, _, moved⟩
    · obtain ⟨known, before, known_held⟩ := mirrors.copied other old
      exact ⟨known, kept.trans before, known_held⟩
    · exact ⟨content, moved.trans file, held⟩
  · apply gives.genuine.pinned
    rw [handles]
    exact List.mem_cons_self

/-- Inserting a new file with a content that the map holds succeeds. -/
theorem insert_created (mirrors : cache.Mirrors contents)
    (held : contents (Fingerprint.ofContent content) = some content) :
    ∃ entry after,
      { cache with folder := (cache.folder.create content).2 }.insert
        (Fingerprint.ofContent content) (cache.folder.create content).1 = (.ok entry, after) ∧
      after.Mirrors contents ∧ entry ∈ after.entries ∧
        entry.fingerprint = Fingerprint.ofContent content :=
  (mirrors.create content).insert (Folder.item?_set_self cache.folder _ _) rfl held

end Mirrors

end ContentStore.Cache
