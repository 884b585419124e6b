import ContentStore.Proofs.Cache.Operations
import ContentStore.Proofs.Stream

/-!
Contract: what the files of a cache contain.

Owns:
- `Entry.Intact`, by which the file of an entry has the length and hashes to the
  fingerprint that the entry tells;
- `Cache.Genuine`, by which a cache is sound and all its entries are intact, and
  that every operation keeps it, as long as what is inserted under a fingerprint
  hashes to it;
- `Cache.Gives`, which tells the handles that are held after an operation that
  is to give one;
- `insertContent`, which writes a content to a new file and inserts it;
- `receive_ok`, by which a received file has the content of the reader.

Does not own: where the files that are inserted come from.
-/

namespace ContentStore

/-- The file of an entry has the length and the fingerprint that the entry
tells. -/
def Entry.Intact (entry : Entry) (folder : Folder) : Prop :=
  ∃ content, folder.item? entry.file = some (.file content) ∧
    Fingerprint.ofContent content = entry.fingerprint ∧ content.length = entry.size

namespace Cache

variable {cache after : Cache} {entry : Entry} {fingerprint : Fingerprint} {folder : Folder}
  {content : Bytes} {reader : Reader} {serial : Nat} {temporary : FileName}

/-- The invariant of a cache whose files nobody else changes. -/
structure Genuine (cache : Cache) : Prop extends Sound cache where
  intact : ∀ entry ∈ cache.entries, entry.Intact cache.folder
  /-- Nothing has reached a new file before it is written. -/
  blank : cache.folder.medium.reached = []

theorem genuine_empty (budget : Nat) (keepsFolder : Bool) : (empty budget keepsFolder).Genuine where
  toSound := sound_empty budget keepsFolder
  intact := by simp [empty]
  blank := rfl

namespace Genuine

/-- The file of every entry reads with the length and the fingerprint of the
entry. -/
theorem read (genuine : cache.Genuine) (member : entry ∈ cache.entries) :
    ∃ content, cache.read entry = .ok content ∧
      Fingerprint.ofContent content = entry.fingerprint ∧ content.length = entry.size := by
  obtain ⟨content, file, hashed, measured⟩ := genuine.intact entry member
  refine ⟨content, ?_, hashed, measured⟩
  unfold Cache.read Folder.read
  rw [file]

/-- Temporary files do not matter. -/
theorem withFolder (genuine : cache.Genuine) (same : cache.folder.SameFinal folder) :
    { cache with folder := folder }.Genuine where
  toSound := genuine.toSound.withFolder folder
  intact := by
    intro entry member
    obtain ⟨content, file, told⟩ := genuine.intact entry member
    exact ⟨content, (same.item entry.fingerprint).trans file, told⟩
  blank := (congrArg Writer.reached same.medium).trans genuine.blank

theorem hold (genuine : cache.Genuine) (member : entry ∈ cache.entries) :
    (cache.hold entry).Genuine :=
  ⟨genuine.toSound.hold member, genuine.intact, genuine.blank⟩

theorem release (genuine : cache.Genuine) (entry : Entry) : (cache.release entry).Genuine :=
  ⟨genuine.toSound.release entry, genuine.intact, genuine.blank⟩

/-- Using an entry and holding it keeps a cache genuine. -/
theorem refresh_hold (genuine : cache.Genuine) (member : entry ∈ cache.entries) :
    ((cache.refresh entry).hold entry).Genuine where
  toSound := (genuine.toSound.refresh member).hold ((mem_refresh member).mpr member)
  intact := fun other among => genuine.intact other ((mem_refresh member).mp among)
  blank := genuine.blank

end Genuine

/-! ## Operations that give a handle -/

/-- How an operation ends that is to give a handle on the entry of a
fingerprint: with one more handle, or else with the handles that there were. -/
structure Gives {Fault : Type} (fingerprint : Fingerprint) (before : Cache)
    (result : Except Fault Entry × Cache) : Prop where
  genuine : result.2.Genuine
  given : ∀ entry, result.1 = .ok entry →
    entry.fingerprint = fingerprint ∧ result.2.held = entry :: before.held
  refused : ∀ fault, result.1 = .error fault → result.2.held = before.held

/-- A look-up either gives a handle on the entry of the fingerprint or changes
nothing. -/
theorem Genuine.get?_some (genuine : cache.Genuine)
    (found : cache.get? fingerprint = (some entry, after)) :
    after.Genuine ∧ entry.fingerprint = fingerprint ∧ after.held = entry :: cache.held := by
  cases cached : cache.find? fingerprint with
  | none =>
    rw [get?_of_absent cached] at found
    exact absurd (Prod.mk.inj found).1 (by simp)
  | some other =>
    rw [get?_of_cached cached] at found
    obtain ⟨same, rfl⟩ := Prod.mk.inj found
    obtain rfl := Option.some.inj same
    obtain ⟨member, named⟩ := (genuine.toSound.find?_eq_some_iff fingerprint).mp cached
    exact ⟨genuine.refresh_hold member, named, rfl⟩

theorem get?_none (missed : cache.get? fingerprint = (none, after)) : after = cache := by
  cases cached : cache.find? fingerprint with
  | none =>
    rw [get?_of_absent cached] at missed
    exact (Prod.mk.inj missed).2.symm
  | some entry =>
    rw [get?_of_cached cached] at missed
    exact absurd (Prod.mk.inj missed).1 (by simp)

@[simp]
theorem insert_medium (cache : Cache) (fingerprint : Fingerprint) (temporary : FileName) :
    (cache.insert fingerprint temporary).2.folder.medium = cache.folder.medium := by
  rcases insert_cases cache fingerprint temporary with
    ⟨entry, found, inserted⟩ | ⟨kind, absent, inserted⟩ |
      ⟨folder, size, absent, renamed, _, inserted⟩ <;>
  rw [inserted]
  · exact Folder.discard_medium _ _
  · exact Folder.discard_medium _ _
  · show ((cache.enter folder fingerprint size).evict fingerprint).folder.medium = _
    rw [evict_medium, enter_folder, Folder.rename_medium renamed]

/-- An insertion takes a handle on the entry that it gives, if it gives one. -/
theorem insert_held (cache : Cache) (fingerprint : Fingerprint) (temporary : FileName) :
    (cache.insert fingerprint temporary).2.held =
      (cache.insert fingerprint temporary).1.toOption.toList ++ cache.held := by
  rcases insert_cases cache fingerprint temporary with
    ⟨entry, found, inserted⟩ | ⟨kind, absent, inserted⟩ |
      ⟨folder, size, absent, renamed, _, inserted⟩ <;>
  rw [inserted]
  · rfl
  · rfl
  · show cache.nextEntry fingerprint size ::
      ((cache.enter folder fingerprint size).evict fingerprint).held = _
    rw [evict_held, enter_held]
    rfl

/-- An insertion gives no entry but that of the fingerprint. -/
theorem fingerprint_of_insert_ok {temporary : FileName}
    (inserted : cache.insert fingerprint temporary = (.ok entry, after)) :
    entry.fingerprint = fingerprint := by
  rcases insert_cases cache fingerprint temporary with
    ⟨other, found, done⟩ | ⟨kind, absent, done⟩ | ⟨folder, size, absent, renamed, _, done⟩ <;>
  rw [done] at inserted
  · obtain rfl := Except.ok.inj (Prod.mk.inj inserted).1
    exact (of_find?_eq_some found).2
  · exact absurd (Prod.mk.inj inserted).1 (by simp)
  · obtain rfl := Except.ok.inj (Prod.mk.inj inserted).1
    rfl

/-- Inserting a file under the fingerprint of its content gives a handle on its
entry, and keeps a cache genuine. -/
theorem Genuine.insert (genuine : cache.Genuine)
    (file : cache.folder.item? (.temporary serial) = some (.file content))
    (hashed : Fingerprint.ofContent content = fingerprint) :
    Gives fingerprint cache (cache.insert fingerprint (.temporary serial)) where
  genuine := by
    refine ⟨genuine.toSound.insert fingerprint _, ?_, ?_⟩
    · intro entry member
      rcases genuine.toSound.item?_insert member with ⟨old, kept⟩ | ⟨rfl, _, moved⟩
      · obtain ⟨known, before, told⟩ := genuine.intact entry old
        exact ⟨known, kept.trans before, told⟩
      · refine ⟨content, moved.trans file, hashed, ?_⟩
        show content.length = cache.folder.sizeOf (.temporary serial)
        unfold Folder.sizeOf
        rw [file]
    · rw [insert_medium]
      exact genuine.blank
  given := by
    intro entry succeeded
    refine ⟨fingerprint_of_insert_ok (Prod.ext succeeded rfl), ?_⟩
    rw [insert_held, succeeded]
    rfl
  refused := by
    intro kind failed
    rw [insert_held, failed]
    rfl

/-- Inserting a content that has been written to a temporary file, under its own
fingerprint. -/
theorem Genuine.insert_created (genuine : cache.Genuine) (content : Bytes) :
    Gives (Fingerprint.ofContent content) cache
      ({ cache with folder := (cache.folder.create content).2 }.insert
        (Fingerprint.ofContent content) (cache.folder.create content).1) := by
  have created := genuine.withFolder (Folder.SameFinal.create cache.folder content)
  have file : (cache.folder.create content).2.item? (cache.folder.create content).1 =
      some (.file content) := Folder.item?_set_self _ _ _
  have inserted := created.insert file rfl
  exact ⟨inserted.genuine, inserted.given, inserted.refused⟩

/-- Write a content to a new file, and insert it under its fingerprint. -/
def insertContent (cache : Cache) (content : Bytes) : Except IoKind Entry × Cache :=
  { cache with folder := (cache.folder.create content).2 }.insert (Fingerprint.ofContent content)
    (cache.folder.create content).1

/-! ## Receiving -/

/-- A reader that is received is read to its end, into a temporary file that has
its content behind what had reached the medium before; the fingerprint is that of the
content. -/
theorem receive_written (received : cache.receive reader = (.ok (fingerprint, temporary), after)) :
    reader.content.2 = none ∧ fingerprint = Fingerprint.ofContent reader.content.1 ∧
      temporary = (cache.folder.create (cache.folder.medium.written ++ reader.content.1)).1 ∧
      after = { cache with
        folder := (cache.folder.create (cache.folder.medium.written ++ reader.content.1)).2 } := by
  unfold receive at received
  rcases copied : copyDigest reader cache.folder.medium with ⟨outcome, writer⟩
  rw [copied] at received
  cases outcome with
  | error kind => exact absurd (Prod.mk.inj received).1 (by simp)
  | ok digest =>
    obtain ⟨ended, written, hashed⟩ := copyDigest_ok copied
    obtain ⟨sameOutcome, rfl⟩ := Prod.mk.inj received
    obtain ⟨rfl, rfl⟩ := Prod.mk.inj (Except.ok.inj sameOutcome)
    rw [← written]
    exact ⟨ended, hashed, rfl, rfl⟩

/-- A reader that is received into a new file that begins empty becomes a file with
its content. -/
theorem receive_ok (blank : cache.folder.medium.reached = [])
    (received : cache.receive reader = (.ok (fingerprint, temporary), after)) :
    reader.content.2 = none ∧ fingerprint = Fingerprint.ofContent reader.content.1 ∧
      temporary = (cache.folder.create reader.content.1).1 ∧
      after = { cache with folder := (cache.folder.create reader.content.1).2 } := by
  have none_written : cache.folder.medium.written = [] := by
    unfold Writer.written
    rw [blank, List.reverse_nil]
  have given := receive_written received
  rw [none_written, List.nil_append] at given
  exact given

/-- A reader is refused if copying it fails, and what was written of it before is
discarded. -/
theorem receive_error {kind : IoKind} (refused : cache.receive reader = (.error kind, after)) :
    (copyDigest reader cache.folder.medium).1 = .error kind ∧
      ∃ content, after = { cache with
        folder := (cache.folder.create content).2.discard (cache.folder.create content).1 } := by
  unfold receive at refused
  rcases copied : copyDigest reader cache.folder.medium with ⟨outcome, writer⟩
  rw [copied] at refused
  cases outcome with
  | ok digest => exact absurd (Prod.mk.inj refused).1 (by simp)
  | error cause =>
    obtain ⟨same, left⟩ := Prod.mk.inj refused
    obtain rfl := Except.error.inj same
    exact ⟨rfl, writer.written, left.symm⟩

end Cache

end ContentStore
