import ContentStore.Bucket
import ContentStore.Proofs.Store.Usage

/-!
Contract: what a fetch leaves behind that fails.

Owns:
- `Cache.Undisturbed`, by which a cache is as it was, but for a temporary file if
  that could not be unlinked;
- that a download which is not accepted leaves the cache undisturbed, whether it
  hashes to something else or its renaming is refused;
- that a fetch which fails changes nothing but the connection, and that content
  which hashes to something else is refused as such.

Does not own: how the remote answers.
-/

namespace ContentStore

/-! ## Caches that are as they were -/

/-- Books, handles and all files but the next temporary one are as they were; and
that one has left no trace, if it could be unlinked. -/
structure Cache.Undisturbed (before after : Cache) : Prop where
  books : after = { before with folder := after.folder }
  others : ∀ name, name ≠ before.folder.freshName →
    after.folder.item? name = before.folder.item? name
  traceless : before.folder.freshName ∉ before.folder.locked → after = before

namespace Store

variable {Connection : Type} [Remote Connection] {cache : Cache} {fingerprint : Fingerprint}
  {content : Bytes} {cause : StoreError}

omit [Remote Connection] in
/-- A temporary file that is discarded disturbs nothing. -/
theorem undisturbed_create_discard (cache : Cache) (content : Bytes) :
    cache.Undisturbed { cache with
      folder := (cache.folder.create content).2.discard (cache.folder.create content).1 } where
  books := rfl
  others := by
    intro name different
    exact (Folder.item?_discard_of_ne _ different).trans
      (Folder.item?_create_of_ne content different)
  traceless := by
    intro unlocked
    have same : (cache.folder.create content).2.discard (cache.folder.create content).1 =
        cache.folder :=
      Folder.create_discard_eq content (Folder.not_refuses_create unlocked content)
    rw [same]

omit [Remote Connection] in
/-- A content whose insertion is refused disturbs nothing. -/
theorem undisturbed_insertContent {refused : Cache} {kind : IoKind}
    (failed : cache.insertContent content = (.error kind, refused)) :
    cache.Undisturbed refused := by
  unfold Cache.insertContent at failed
  rcases Cache.insert_cases { cache with folder := (cache.folder.create content).2 }
      (Fingerprint.ofContent content) (cache.folder.create content).1 with
    ⟨entry, _, inserted⟩ | ⟨cause, _, inserted⟩ | ⟨folder, size, _, _, _, inserted⟩ <;>
  rw [inserted] at failed
  · exact absurd (Prod.mk.inj failed).1 (by simp)
  · rw [← (Prod.mk.inj failed).2]
    exact undisturbed_create_discard cache content
  · exact absurd (Prod.mk.inj failed).1 (by simp)

omit [Remote Connection] in
/-- A download that is not accepted disturbs nothing. -/
theorem undisturbed_accept {after : Cache}
    (refused : accept fingerprint content cache = (.error cause, after)) :
    cache.Undisturbed after := by
  unfold accept at refused
  by_cases hashed : Fingerprint.ofContent content = fingerprint
  · subst hashed
    rcases inserted : cache.insertContent content with ⟨kind | entry, left⟩ <;>
    have done := inserted <;>
    unfold Cache.insertContent at done <;>
    simp only [if_true, done] at refused
    · rw [← (Prod.mk.inj refused).2]
      exact undisturbed_insertContent inserted
    · exact absurd (Prod.mk.inj refused).1 (by simp)
  · simp only [if_neg hashed] at refused
    rw [← (Prod.mk.inj refused).2]
    exact undisturbed_create_discard cache content

omit [Remote Connection] in
/-- A download that hashes to something else is refused as such. -/
theorem accept_of_ne (different : Fingerprint.ofContent content ≠ fingerprint) :
    (accept fingerprint content cache).1 =
      .error (.digestMismatch fingerprint (Fingerprint.ofContent content)) := by
  simp only [accept, if_neg different]

omit [Remote Connection] in
/-- A download is refused if a directory stands where its file is to go. -/
theorem accept_of_directory (absent : cache.find? fingerprint = none)
    (hashed : Fingerprint.ofContent content = fingerprint)
    (directory : cache.folder.item? (.stored fingerprint) = some .directory) :
    (accept fingerprint content cache).1 = .error (.system .isADirectory) := by
  have present : (cache.folder.create content).2.item? (cache.folder.create content).1 ≠ none := by
    rw [show (cache.folder.create content).2.item? (cache.folder.create content).1 =
      some (.file content) from Folder.item?_set_self _ _ _]
    exact Option.some_ne_none _
  have occupied : (cache.folder.create content).2.item? (.stored fingerprint) =
      some .directory :=
    (Folder.item?_create_of_ne content FileName.noConfusion).trans directory
  have notCached : ({ cache with folder := (cache.folder.create content).2 } : Cache).find?
      fingerprint = none := absent
  simp only [accept, if_pos hashed,
    Cache.insert_of_refused notCached (Folder.rename_of_directory present occupied)]

/-- A fetch of what is not cached fails as the remote does. -/
theorem get_of_refused {store : Store Connection} (absent : store.cache.find? fingerprint = none)
    (failed : (Remote.get fingerprint.text store.connection).1.1 = .error cause) :
    (store.get fingerprint).1 = .error cause := by
  rcases sent : Remote.get fingerprint.text store.connection with ⟨⟨outcome, written⟩, connection⟩
  rw [sent] at failed
  obtain rfl : outcome = .error cause := failed
  simp only [Store.get, Cache.get?_of_absent absent, sent]

/-- A fetch of what is not cached asks the remote, and then accepts what it
sent. -/
theorem get_of_absent {store : Store Connection} {connection : Connection} {length : Nat}
    (absent : store.cache.find? fingerprint = none)
    (sent : Remote.get fingerprint.text store.connection = ((.ok length, content), connection)) :
    store.get fingerprint =
      ((accept fingerprint content store.cache).1.map (store.binaryOf fingerprint),
        { store with
          cache := (accept fingerprint content store.cache).2
          connection := connection }) := by
  simp only [Store.get, Cache.get?_of_absent absent, sent]
  rcases accept fingerprint content store.cache with ⟨outcome, accepted⟩
  cases outcome <;> rfl

/-- Whatever the remote answers, and whatever stands in the folder: a fetch that
fails leaves the cache undisturbed, with its entries in their order, their sizes,
the handles on them, the orphans and the total, and changes nothing but the
connection.  If the remote tells of success, and what it sent hashes to something
else than it was asked for, the fetch fails and tells both fingerprints; if a
directory stands where the file is to go, the fetch fails for that. -/
theorem failed_fetch_changes_nothing (store : Store Connection) (fingerprint : Fingerprint) :
    (∀ cause after, store.get fingerprint = (.error cause, after) →
      after = { store with cache := after.cache, connection := after.connection } ∧
      store.cache.Undisturbed after.cache) ∧
    ∀ length content, store.cache.find? fingerprint = none →
      (Remote.get fingerprint.text store.connection).1 = (.ok length, content) →
      (Fingerprint.ofContent content ≠ fingerprint →
        (store.get fingerprint).1 =
          .error (.digestMismatch fingerprint (Fingerprint.ofContent content))) ∧
      (Fingerprint.ofContent content = fingerprint →
        store.cache.folder.item? (.stored fingerprint) = some .directory →
        (store.get fingerprint).1 = .error (.system .isADirectory)) := by
  constructor
  · intro cause after failed
    cases found : store.cache.find? fingerprint with
    | some entry =>
      simp only [Store.get, Cache.get?_of_cached found] at failed
      exact absurd (Prod.mk.inj failed).1 (by simp)
    | none =>
      rcases sent : Remote.get fingerprint.text store.connection with
        ⟨⟨_ | length, content⟩, connection⟩
      · simp only [Store.get, Cache.get?_of_absent found, sent] at failed
        rw [← (Prod.mk.inj failed).2]
        exact ⟨rfl, undisturbed_create_discard store.cache content⟩
      · rw [get_of_absent found sent] at failed
        rcases accepted : accept fingerprint content store.cache with ⟨_ | entry, kept⟩ <;>
        rw [accepted] at failed
        · rw [← (Prod.mk.inj failed).2]
          exact ⟨rfl, undisturbed_accept accepted⟩
        · exact absurd (Prod.mk.inj failed).1 (by simp [Except.map])
  · intro length content absent sent
    rw [get_of_absent absent (Prod.ext sent rfl)]
    constructor
    · intro different
      rw [accept_of_ne different]
      rfl
    · intro hashed directory
      rw [accept_of_directory absent hashed directory]
      rfl

/-! ### A name that is taken, and a remote that sends something else -/

/-- A file is held, another one is an orphan, and a directory stands under the
name of a third one, which the remote has.  For a fourth one it sends something
else. -/
def obstruction : List (Step Bucket) :=
  [.act (.put (Reader.ofContent [1])),
    .act (.put (Reader.ofContent [2])),
    .act (.drop ⟨⟨1, Fingerprint.ofContent [2], 1⟩, Fingerprint.ofContent [2], ""⟩),
    .surround [.stored (Fingerprint.ofContent [2])] Writer.unlimited,
    .putWhile (fun folder => folder.set (.stored (Fingerprint.ofContent [4])) .directory)
      (Reader.ofContent [3]),
    .elsewhere fun bucket =>
      bucket.insert (Fingerprint.ofContent [4]).text (Bucket.objectOf [4]),
    .elsewhere fun bucket => bucket.addFault
      ⟨.get, some (Fingerprint.ofContent [5]).text, .lie none [6] ""⟩]

/-- Neither the third file nor the fourth one can be fetched, and the cache is as
it was after either fetch. -/
theorem obstructed_fetches_change_nothing :
    let store := (Usage.run obstruction (Usage.first "" 1 (Bucket.empty ""))).store
    store.cache.entries.length = 2 ∧ store.cache.held.length = 2 ∧
      store.cache.orphans = [⟨1, Fingerprint.ofContent [2], 1⟩] ∧
      (store.get (Fingerprint.ofContent [4])).1 = .error (.system .isADirectory) ∧
      (store.get (Fingerprint.ofContent [4])).2.cache = store.cache ∧
      (store.get (Fingerprint.ofContent [5])).1 =
        .error (.digestMismatch (Fingerprint.ofContent [5]) (Fingerprint.ofContent [6])) ∧
      (store.get (Fingerprint.ofContent [5])).2.cache = store.cache := by
  have kept (store : Store Bucket)
      (unlocked : store.cache.folder.freshName ∉ store.cache.folder.locked)
      (fingerprint : Fingerprint) (cause : StoreError)
      (failed : (store.get fingerprint).1 = .error cause) :
      (store.get fingerprint).2.cache = store.cache :=
    ((failed_fetch_changes_nothing store fingerprint).1 cause _
      (Prod.ext failed rfl)).2.traceless unlocked
  intro store
  have facts : store.cache.folder.freshName ∉ store.cache.folder.locked ∧
      (store.cache.entries.length = 2 ∧ store.cache.held.length = 2 ∧
        store.cache.orphans = [⟨1, Fingerprint.ofContent [2], 1⟩]) ∧
      (store.cache.find? (Fingerprint.ofContent [4]) = none ∧
        store.cache.find? (Fingerprint.ofContent [5]) = none) ∧
      (Remote.get (Fingerprint.ofContent [4]).text store.connection).1 = (.ok 1, [4]) ∧
      (Remote.get (Fingerprint.ofContent [5]).text store.connection).1 = (.ok 1, [6]) ∧
      store.cache.folder.item? (.stored (Fingerprint.ofContent [4])) = some .directory ∧
      Fingerprint.ofContent [6] ≠ Fingerprint.ofContent [5] := by
    decide +kernel
  obtain ⟨unlocked, ⟨entries, held, orphans⟩, ⟨absent, absentElse⟩, sent, sentElse, directory,
    different⟩ := facts
  have occupied := ((failed_fetch_changes_nothing store _).2 _ _ absent sent).2 rfl directory
  have mistaken := ((failed_fetch_changes_nothing store _).2 _ _ absentElse sentElse).1 different
  exact ⟨entries, held, orphans, occupied, kept store unlocked _ _ occupied,
    mistaken, kept store unlocked _ _ mistaken⟩

end Store

end ContentStore
