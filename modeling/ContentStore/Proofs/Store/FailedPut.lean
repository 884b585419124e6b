import ContentStore.Proofs.Cache.Temporary
import ContentStore.Proofs.Store.Lending
import ContentStore.Proofs.Store.Refusal
import ContentStore.Proofs.Store.Transparency

/-!
Contract: what a put leaves behind that fails.

Owns:
- `UploadFails`, the ways in which an upload fails;
- `BacksOut`, by which a put fails before its content is cached, and has disturbed
  nothing and called nobody;
- `Strands`, by which a put fails when its content has been cached, which then stays
  there, used last and not held;
- that every put which fails does one or the other, whatever the remote answers and
  whatever others have made of the folder;
- that a content which was stranded can be put again, once the remote is truthful,
  as long as its file is unspoilt.

Does not own: puts that succeed.
-/

namespace ContentStore

/-! ## Inserting a new file -/

namespace Cache

variable {cache after : Cache} {entry : Entry} {rest : List Entry} {fingerprint : Fingerprint}
  {content : Bytes} {temporary : FileName} {serial : Nat}

/-- The entry that was used last stays the first one when room is made, if it is to
be kept. -/
theorem head?_evict (first : cache.entries = entry :: rest) :
    (cache.evict entry.fingerprint).entries.head? = some entry := by
  obtain ⟨victims, _, free, evicted⟩ := evict_eq entry.fingerprint cache
  have spared : entry ∉ victims := fun victim => (free entry victim).1 rfl
  rw [evicted, foldl_dispose_entries]
  show (cache.entries.diff victims).head? = some entry
  rw [first, List.cons_diff_of_not_mem spared, List.head?_cons]

/-- The entry that an insertion gives is the one used last. -/
theorem head?_insert (inserted : cache.insert fingerprint temporary = (.ok entry, after)) :
    after.entries.head? = some entry := by
  rcases insert_cases cache fingerprint temporary with
    ⟨other, _, done⟩ | ⟨kind, _, done⟩ | ⟨folder, size, _, _, _, done⟩ <;>
  rw [done] at inserted <;>
  obtain ⟨given, rfl⟩ := Prod.mk.inj inserted
  · rw [← Except.ok.inj given]
    rfl
  · exact absurd given (by simp)
  · rw [← Except.ok.inj given]
    exact head?_evict (enter_entries cache folder fingerprint size)

/-- An insertion of a content leaves no temporary file behind, if this one can be
unlinked, and does not touch those of others. -/
theorem item?_insertContent (unlocked : cache.folder.freshName ∉ cache.folder.locked)
    (content : Bytes) (serial : Nat) :
    (cache.insertContent content).2.folder.item? (.temporary serial) =
      cache.folder.item? (.temporary serial) := by
  by_cases own : FileName.temporary serial = cache.folder.freshName
  · have yielding := Folder.not_refuses_create unlocked content
    rw [own, Folder.item?_freshName]
    exact item?_insert_self _ _ yielding
  · refine (item?_insert_of_ne _ _ ?_).trans (Folder.item?_create_of_ne content own)
    rintro rfl
    exact own rfl

/-- A new file is discarded if its fingerprint is cached. -/
theorem exists_insert_of_cached (found : cache.find? fingerprint = some entry)
    (content : Bytes) :
    ∃ after, { cache with folder := (cache.folder.create content).2 }.insert fingerprint
        (cache.folder.create content).1 = (.ok entry, after) ∧
      after.folder.item? (.stored fingerprint) = cache.folder.item? (.stored fingerprint) := by
  refine ⟨_, insert_of_cached found, ?_⟩
  exact (Folder.item?_discard_of_ne _ FileName.noConfusion).trans
    (Folder.item?_create_of_ne content FileName.noConfusion)

/-- The file of a fingerprint, if this is cached, still hashes to it. -/
def Unspoilt (cache : Cache) (fingerprint : Fingerprint) : Prop :=
  ∀ entry ∈ cache.entries, entry.fingerprint = fingerprint →
    ∃ content, cache.folder.item? (.stored fingerprint) = some (.file content) ∧
      Fingerprint.ofContent content = fingerprint

/-- The files of a genuine cache are unspoilt. -/
theorem Genuine.unspoilt (genuine : cache.Genuine) (fingerprint : Fingerprint) :
    cache.Unspoilt fingerprint := by
  rintro entry member rfl
  obtain ⟨content, file, hashed, _⟩ := genuine.intact entry member
  exact ⟨content, file, hashed⟩

/-- The file of a content is unspoilt when it has been inserted, whether it is new or
was unspoilt before. -/
theorem Sound.unspoilt_insertContent (sound : cache.Sound) (content : Bytes)
    (unspoilt : cache.Unspoilt (Fingerprint.ofContent content)) :
    (cache.insertContent content).2.Unspoilt (Fingerprint.ofContent content) := by
  intro entry member named
  have final : (cache.folder.create content).2.item? entry.file = cache.folder.item? entry.file :=
    Folder.item?_create_of_ne content FileName.noConfusion
  have file : (cache.folder.create content).2.item? (cache.folder.create content).1 =
      some (.file content) := Folder.item?_set_self _ _ _
  rw [← named]
  rcases (sound.withFolder (cache.folder.create content).2).item?_insert member with
    ⟨old, kept⟩ | ⟨_, _, moved⟩
  · obtain ⟨known, before, told⟩ := unspoilt entry old named
    rw [← named] at before told
    exact ⟨known, kept.trans (final.trans before), told⟩
  · exact ⟨content, moved.trans file, named.symm⟩

end Cache

/-! ## The two ways to fail -/

namespace Store

variable {Connection : Type} [Remote Connection] {before after : Store Connection}
  {fingerprint : Fingerprint} {file : Except IoKind Bytes} {connection asked done : Connection}
  {reader : Reader} {cause : StoreError}

/-- How an upload fails. -/
inductive UploadFails (fingerprint : Fingerprint) (file : Except IoKind Bytes)
    (connection : Connection) : StoreError → Connection → Prop
  /-- The remote does not tell whether it holds the object. -/
  | asking {cause : StoreError} {done : Connection} :
    Remote.head fingerprint.text connection = (.error cause, done) →
    UploadFails fingerprint file connection cause done
  /-- The remote does not hold the object, and storing the file fails. -/
  | storing {cause : StoreError} {asked done : Connection} :
    Remote.head fingerprint.text connection = (.ok .absent, asked) →
    Remote.putFile file asked = (.error cause, done) →
    UploadFails fingerprint file connection cause done
  /-- What was stored has another fingerprint. -/
  | mistaking {stored : Fingerprint} {asked done : Connection} :
    Remote.head fingerprint.text connection = (.ok .absent, asked) →
    Remote.putFile file asked = (.ok stored, done) → stored ≠ fingerprint →
    UploadFails fingerprint file connection (.io (.changedBeforeUpload fingerprint stored)) done

private theorem upload_eq_error_iff :
    upload fingerprint file connection = (.error cause, done) ↔
      UploadFails fingerprint file connection cause done := by
  constructor
  · intro failed
    unfold upload at failed
    rcases told : Remote.head fingerprint.text connection with ⟨other | length | _, asked⟩ <;>
    rw [told] at failed
    · obtain ⟨same, rfl⟩ := Prod.mk.inj failed
      rw [← Except.error.inj same]
      exact .asking told
    · exact absurd (Prod.mk.inj failed).1 (by simp)
    · rcases put : Remote.putFile file asked with ⟨other | stored, left⟩ <;>
      simp only [put] at failed
      · obtain ⟨same, rfl⟩ := Prod.mk.inj failed
        rw [← Except.error.inj same]
        exact .storing told put
      · by_cases named : stored = fingerprint
        · rw [if_pos named] at failed
          exact absurd (Prod.mk.inj failed).1 (by simp)
        · rw [if_neg named] at failed
          obtain ⟨same, rfl⟩ := Prod.mk.inj failed
          rw [← Except.error.inj same]
          exact .mistaking told put named
  · intro fails
    cases fails with
    | asking told => simp only [upload, told]
    | storing told put => simp only [upload, told, put]
    | mistaking told put different => simp only [upload, told, put, if_neg different]

/-- A put fails before its content is cached: the content could not be copied, or the
new file could not be renamed.  Everything is as it was. -/
structure BacksOut (before : Store Connection) (reader : Reader) (cause : StoreError)
    (after : Store Connection) : Prop where
  refused : ∃ kind, cause = .system kind ∧
    ((copyDigest reader before.cache.folder.medium).1 = .error kind ∨
      (before.cache.insertContent reader.content.1).1 = .error kind)
  rest : after = { before with cache := after.cache }
  undisturbed : before.cache.Undisturbed after.cache

/-- A put fails when its content has been cached: the cache is as the insertion of
the content left it, but that the handle has been given back. -/
structure Strands (before : Store Connection) (reader : Reader) (cause : StoreError)
    (after : Store Connection) (entry : Entry) (inserted : Cache) : Prop where
  complete : reader.content.2 = none
  inserts : before.cache.insertContent reader.content.1 = (.ok entry, inserted)
  fails : UploadFails (Fingerprint.ofContent reader.content.1) (inserted.read entry)
    before.connection cause after.connection
  rest : after =
    { before with cache := inserted.release entry, connection := after.connection }

/-- There is no third way. -/
theorem backsOut_or_strands (blank : before.cache.folder.medium.reached = [])
    (failed : before.put reader = (.error cause, after)) :
    before.BacksOut reader cause after ∨
      ∃ entry inserted, before.Strands reader cause after entry inserted := by
  unfold put putWhile at failed
  rcases received : before.cache.receive reader with ⟨kind | ⟨fingerprint, temporary⟩, cache⟩ <;>
  rw [received] at failed
  · obtain ⟨copied, content, rfl⟩ := Cache.receive_error received
    obtain ⟨same, rfl⟩ := Prod.mk.inj failed
    refine Or.inl ⟨⟨kind, (Except.error.inj same).symm, Or.inl copied⟩, rfl, ?_⟩
    exact undisturbed_create_discard before.cache content
  · obtain ⟨complete, rfl, rfl, rfl⟩ := Cache.receive_ok blank received
    rcases inserts : before.cache.insertContent reader.content.1 with ⟨kind | entry, inserted⟩ <;>
    have done := inserts <;>
    unfold Cache.insertContent at done <;>
    simp only [done] at failed
    · obtain ⟨same, rfl⟩ := Prod.mk.inj failed
      refine Or.inl ⟨⟨kind, (Except.error.inj same).symm, Or.inr (by rw [inserts])⟩, rfl, ?_⟩
      exact undisturbed_insertContent inserts
    · rcases uploaded : upload (Fingerprint.ofContent reader.content.1) (inserted.read entry)
        before.connection with ⟨other | _, connection⟩ <;>
      simp only [uploaded] at failed
      · obtain ⟨same, rfl⟩ := Prod.mk.inj failed
        rw [Except.error.inj same] at uploaded
        exact Or.inr ⟨entry, inserted, complete, inserts, upload_eq_error_iff.mp uploaded, rfl⟩
      · exact absurd (Prod.mk.inj failed).1 (by simp)

/-- The handle on a stranded content has been given back. -/
theorem Strands.held {entry : Entry} {inserted : Cache}
    (strands : before.Strands reader cause after entry inserted) :
    after.cache.held = before.cache.held := by
  have taken : inserted.held = entry :: before.cache.held := by
    have held := Cache.insert_held
      { before.cache with folder := (before.cache.folder.create reader.content.1).2 }
      (Fingerprint.ofContent reader.content.1)
      (before.cache.folder.create reader.content.1).1
    have inserts := strands.inserts
    unfold Cache.insertContent at inserts
    rw [inserts] at held
    exact held
  rw [strands.rest]
  show inserted.held.erase entry = before.cache.held
  rw [taken, List.erase_cons_head]

/-! ## Putting a content again -/

/-- A content that can be received is put over a truthful bucket while it is cached
with an unspoilt file. -/
theorem put_of_unspoilt {store : Store Bucket} {entry : Entry}
    (truthful : store.connection.Truthful)
    (named : Fingerprint.ofContent reader.content.1 = fingerprint)
    (found : store.cache.find? fingerprint = some entry)
    (unspoilt : store.cache.Unspoilt fingerprint)
    (received : ∀ kind, (store.cache.receive reader).1 ≠ .error kind) :
    ∃ binary done, store.put reader = (.ok binary, done) ∧ binary.fingerprint = fingerprint ∧
      ∃ held, done.connection.contents fingerprint = some held ∧
        Fingerprint.ofContent held = fingerprint := by
  rcases given : store.cache.receive reader with ⟨kind | ⟨digest, temporary⟩, cache⟩
  · exact absurd (congrArg Prod.fst given) (received kind)
  obtain ⟨_, rfl, rfl, rfl⟩ := Cache.receive_written given
  subst named
  -- The new file is discarded, and the one that was there is uploaded.
  obtain ⟨inserted, inserts, file⟩ := Cache.exists_insert_of_cached found
    (store.cache.folder.medium.written ++ reader.content.1)
  obtain ⟨member, cached⟩ := Cache.of_find?_eq_some found
  obtain ⟨known, before, hashed⟩ := unspoilt entry member cached
  have read : inserted.read entry = .ok known := by
    unfold Cache.read Folder.read Entry.file
    rw [cached, file, before]
  obtain ⟨connection, uploaded, truthfulAfter, objects⟩ := upload_of_truthful truthful known
  rw [hashed] at uploaded
  refine ⟨store.binaryOf (Fingerprint.ofContent reader.content.1) entry,
    { store with cache := inserted, connection := connection }, ?_, rfl, ?_⟩
  · unfold put putWhile
    simp only [given, inserts, read, uploaded]
  · have stored : connection.contents (Fingerprint.ofContent known) ≠ none := by
      rw [Bucket.contents_of_objects objects, Bucket.contents_adding]
      exact Contents.adding_ne_none_iff.mpr (Or.inr rfl)
    rw [hashed] at stored
    obtain ⟨held, present⟩ := Option.ne_none_iff_exists'.mp stored
    exact ⟨held, present, truthfulAfter.hashed _ held present⟩

/-! ## Every put that fails -/

/-- Whoever still has the file that a put left under the fingerprint of a content can
put this content over a truthful bucket, which then holds the fingerprint. -/
def CanPutAgain (after : Store Connection) (reader : Reader) : Prop :=
  ∀ (later : Store Bucket) (again : Reader), later.connection.Truthful →
    again.content = reader.content →
    later.cache.contains (Fingerprint.ofContent reader.content.1) →
    later.cache.folder.item? (.stored (Fingerprint.ofContent reader.content.1)) =
      after.cache.folder.item? (.stored (Fingerprint.ofContent reader.content.1)) →
    (∀ kind, (later.cache.receive again).1 ≠ .error kind) →
    ∃ binary done, later.put again = (.ok binary, done) ∧
      binary.fingerprint = Fingerprint.ofContent reader.content.1 ∧
      ∃ held, done.connection.contents (Fingerprint.ofContent reader.content.1) = some held ∧
        Fingerprint.ofContent held = Fingerprint.ofContent reader.content.1

/-- A content that was stranded can be put again, if its file was unspoilt in case it
was cached before. -/
theorem Strands.canPutAgain {entry : Entry} {inserted : Cache} (sound : before.cache.Sound)
    (strands : before.Strands reader cause after entry inserted)
    (unspoilt : before.cache.Unspoilt (Fingerprint.ofContent reader.content.1)) :
    after.CanPutAgain reader := by
  intro later again truthful same cached file received
  have named : Fingerprint.ofContent again.content.1 = Fingerprint.ofContent reader.content.1 := by
    rw [same]
  obtain ⟨other, found⟩ := Option.isSome_iff_exists.mp cached
  apply put_of_unspoilt truthful named found _ received
  have left := sound.unspoilt_insertContent reader.content.1 unspoilt
  rw [strands.inserts] at left
  have first : entry ∈ inserted.entries := List.mem_of_head? (Cache.head?_insert strands.inserts)
  obtain ⟨known, kept, hashed⟩ := left entry first (Cache.fingerprint_of_insert_ok strands.inserts)
  intro _ _ _
  rw [strands.rest] at file
  exact ⟨known, file.trans kept, hashed⟩

namespace Usage

/-- Whatever callers and others have done to a store, and whatever its remote answers:
a put that fails leaves no temporary file behind, if that could be unlinked.  Either it
fails before its content is cached, has called nobody, and has changed nothing; or it
fails while the content is uploaded, which stays in the cache as inserted there, used
last and with no handle of this put.  In that case the content can be put again over a
truthful bucket, as long as it is cached with the file that was left there, unless
others had spoilt a file that was cached before the put. -/
theorem failed_put_is_all_or_cached (repository : String) (budget : Nat) (connection : Connection)
    (history : List (Step Connection)) (blank : ∀ taken ∈ history, taken.LeavesBlank)
    (usage : Usage Connection)
    (reached : run history (first repository budget connection) = usage) (reader : Reader)
    (cause : StoreError) (after : Store Connection)
    (failed : usage.store.put reader = (.error cause, after)) :
    (usage.store.cache.folder.freshName ∉ usage.store.cache.folder.locked → ∀ serial,
      after.cache.folder.item? (.temporary serial) =
        usage.store.cache.folder.item? (.temporary serial)) ∧
    (usage.store.BacksOut reader cause after ∧
        (usage.store.cache.folder.freshName ∉ usage.store.cache.folder.locked →
          after = usage.store) ∨
      ∃ entry inserted, usage.store.Strands reader cause after entry inserted ∧
        entry.fingerprint = Fingerprint.ofContent reader.content.1 ∧
        after.cache.entries.head? = some entry ∧
        after.cache.held = usage.store.cache.held ∧
        (usage.store.cache.Unspoilt (Fingerprint.ofContent reader.content.1) →
          after.CanPutAgain reader)) ∧
    ((∀ taken ∈ history, taken.IsOwn) →
      usage.store.cache.Unspoilt (Fingerprint.ofContent reader.content.1)) := by
  have lends : usage.Lends := by
    rw [← reached]
    exact (lends_first repository budget connection).run blank
  have unspoilt (own : ∀ taken ∈ history, taken.IsOwn) :
      usage.store.cache.Unspoilt (Fingerprint.ofContent reader.content.1) := by
    rw [← reached]
    exact ((genuine_first repository budget connection).run own).backs.genuine.unspoilt _
  rcases backsOut_or_strands lends.blank failed with backsOut | ⟨entry, inserted, strands⟩
  · have kept := backsOut.undisturbed.traceless
    refine ⟨?_, Or.inl ⟨backsOut, ?_⟩, unspoilt⟩
    · intro unlocked serial
      rw [kept unlocked]
    · intro unlocked
      rw [backsOut.rest, kept unlocked]
  · refine ⟨?_, Or.inr ⟨entry, inserted, strands, ?_, ?_, strands.held,
      strands.canPutAgain lends.sound⟩, unspoilt⟩
    · intro unlocked serial
      have tidy := Cache.item?_insertContent unlocked reader.content.1 serial
      rw [strands.inserts] at tidy
      rw [strands.rest]
      exact tidy
    · exact Cache.fingerprint_of_insert_ok strands.inserts
    · rw [strands.rest]
      show inserted.entries.head? = some entry
      exact Cache.head?_insert strands.inserts

/-! ### A remote that refuses, and then does not -/

/-- A content is put and let go of, and then the remote is about to refuse. -/
def refusal : List (Step Bucket) :=
  [.act (.put (Reader.ofContent [1])),
    .act (.drop ⟨⟨0, Fingerprint.ofContent [1], 1⟩, Fingerprint.ofContent [1], ""⟩),
    .elsewhere fun bucket => bucket.addFault ⟨.put, none, .failure (.uploadFailed 503) []⟩]

/-- The second content takes the place of the first one in the cache, although the
remote refuses it, and is put when it is put again. -/
theorem refused_content_is_put_again :
    let store := (run refusal (first "" 1 (Bucket.empty ""))).store
    let after := (store.put (Reader.ofContent [2])).2
    (store.put (Reader.ofContent [2])).1 =
        .error (.uploadFailed (Fingerprint.ofContent [2]).text 503) ∧
      (∃ entry, after.cache.entries.head? = some entry ∧
        entry.fingerprint = Fingerprint.ofContent [2]) ∧
      after.cache.held = [] ∧ after.cache.folder.item? (.temporary 1) = none ∧
      ∃ binary done, after.put (Reader.ofContent [2]) = (.ok binary, done) ∧
        ∃ held, done.connection.contents (Fingerprint.ofContent [2]) = some held ∧
          Fingerprint.ofContent held = Fingerprint.ofContent [2] := by
  have facts : let store := (run refusal (first "" 1 (Bucket.empty ""))).store
      let after := (store.put (Reader.ofContent [2])).2
      (store.put (Reader.ofContent [2])).1 =
          .error (.uploadFailed (Fingerprint.ofContent [2]).text 503) ∧
        (store.cache.folder.freshName ∉ store.cache.folder.locked ∧
          store.cache.folder.item? (.temporary 1) = none ∧ store.cache.held = []) ∧
        (after.connection.faults = [] ∧
          after.connection.objects =
            ((Bucket.empty "").insert (Fingerprint.ofContent [1]).text
              (Bucket.objectOf [1])).objects) ∧
        after.cache.contains (Fingerprint.ofContent [2]) = true ∧
        (after.cache.receive (Reader.ofContent [2])).1.toOption.isSome = true := by
    decide +kernel
  have own : ∀ taken ∈ refusal, taken.IsOwn := by simp [refusal, Step.IsOwn]
  have blank : ∀ taken ∈ refusal, taken.LeavesBlank := by simp [refusal, Step.LeavesBlank]
  obtain ⟨usage, reached⟩ : ∃ usage, run refusal (first "" 1 (Bucket.empty "")) = usage :=
    ⟨_, rfl⟩
  rw [reached] at facts ⊢
  obtain ⟨failed, ⟨unlocked, absent, free⟩, ⟨calm, objects⟩, cached, received⟩ := facts
  obtain ⟨tidy, backsOut | strands, unspoilt⟩ := failed_put_is_all_or_cached "" 1 (Bucket.empty "")
    refusal blank usage reached (Reader.ofContent [2]) _ (usage.store.put (Reader.ofContent [2])).2
    (Prod.ext failed rfl)
  · obtain ⟨kind, same, _⟩ := backsOut.1.refused
    exact absurd same (by simp [StoreError.system])
  · obtain ⟨entry, inserted, _, named, first, held, again⟩ := strands
    have truthful := ((Bucket.truthful_empty "").insert [1]).of_objects calm objects
    obtain ⟨binary, done, given, _, stored⟩ := again (unspoilt own) _ (Reader.ofContent [2])
      truthful rfl cached rfl (by
        intro kind refused
        rw [refused] at received
        exact absurd received (by simp [Except.toOption]))
    exact ⟨failed, ⟨entry, first, named⟩, held.trans free, (tidy unlocked 1).trans absent, binary,
      done, given, stored⟩

end Usage

end Store

end ContentStore
