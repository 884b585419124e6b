import ContentStore.Proofs.Collector.Session
import ContentStore.Proofs.Store.Hands

/-!
Contract: runs of a store, in which callers and others take steps in any order.

Owns:
- `Operation`, what callers do with a store and with the binaries that they
  have, and `Step`, which adds what happens around the store;
- `Usage`, a store together with what its callers have in hand, and with the
  fingerprints that were marked with success since the last session began;
- `run`, the usage after some steps;
- the collection session of a usage, to which every step is a step of a session.

An operation that its caller could not ask for, such as cloning a binary that
nobody has, changes nothing.

Does not own: which steps a particular program takes.
-/

namespace ContentStore.Store

/-- What callers do with a store. -/
inductive Operation where
  | put (reader : Reader)
  | get (fingerprint : Fingerprint)
  | length (fingerprint : Fingerprint)
  | remove (fingerprint : Fingerprint)
  | list
  | start
  | mark (fingerprint : Fingerprint)
  /-- The end of a collection, with the milliseconds that it took. -/
  | stop (delete : Bool) (elapsed : UInt64)
  /-- Take another handle on a binary that somebody has. -/
  | clone (binary : Binary)
  | drop (binary : Binary)
  /-- Make a lazy binary. -/
  | defer (fingerprint : Fingerprint)
  | fetch (deferred : LazyBinary)
  | fetchFile (deferred : LazyBinary)
  | fetchLength (deferred : LazyBinary)
  | dropDeferred (deferred : LazyBinary)

/-- What happens to a store. -/
inductive Step (Connection : Type) where
  | act (operation : Operation)
  /-- From now on nothing under these names can be unlinked or renamed, and
  writes to new files go in this way. -/
  | surround (locked : List FileName) (medium : Writer)
  | elsewhere (change : Connection → Connection)
  /-- Others make of the folder what they like. -/
  | alter (folder : Folder)
  /-- A caller puts a content, and meanwhile others change the folder. -/
  | putWhile (meanwhile : Folder → Folder) (reader : Reader)

/-- A store in use. -/
structure Usage (Connection : Type) where
  store : Store Connection
  /-- The binaries that callers have, once for each handle. -/
  binaries : List Binary
  deferred : List LazyBinary
  /-- The fingerprints marked with success since the last start that
  succeeded. -/
  marks : List Fingerprint

namespace Usage

variable {Connection : Type}

/-- A store over a remote before its first use. -/
def first (repository : String) (budget : Nat) (connection : Connection) : Usage Connection :=
  ⟨overRemote repository budget connection, [], [], []⟩

/-- The binaries in hand, those of lazy binaries included. -/
def hands (usage : Usage Connection) : List Binary :=
  usage.binaries ++ usage.deferred.filterMap LazyBinary.binary

/-- The binaries in hand, that of one lazy binary before all others. -/
theorem hands_perm (binaries : List Binary) (deferred : LazyBinary) (others : List LazyBinary) :
    (binaries ++ (deferred :: others).filterMap LazyBinary.binary).Perm
      (deferred.binary.toList ++ (binaries ++ others.filterMap LazyBinary.binary)) := by
  cases fetched : deferred.binary with
  | none =>
    rw [List.filterMap_cons_none fetched]
    exact List.Perm.refl _
  | some binary =>
    rw [List.filterMap_cons_some fetched]
    exact List.perm_middle

/-- The collection session of a store in use. -/
def session (usage : Usage Connection) : Collector.Session Connection :=
  ⟨usage.store.collector, usage.store.connection, usage.marks⟩

/-- Take the binary that an operation gave, if it gave one. -/
def take (usage : Usage Connection) :
    Except StoreError Binary × Store Connection → Usage Connection
  | (.ok binary, store) => { usage with store := store, binaries := binary :: usage.binaries }
  | (.error _, store) => { usage with store := store }

/-- Put what has become of a lazy binary in its place. -/
def replace (usage : Usage Connection) (deferred : LazyBinary)
    (result : LazyBinary × Store Connection) : Usage Connection :=
  if deferred ∈ usage.deferred then
    { usage with store := result.2, deferred := result.1 :: usage.deferred.erase deferred }
  else usage

/-- Taking what an operation gave does not use the remote. -/
@[simp]
theorem take_connection (usage : Usage Connection)
    (result : Except StoreError Binary × Store Connection) :
    (usage.take result).store.connection = result.2.connection := by
  obtain ⟨outcome, after⟩ := result
  cases outcome <;> rfl

theorem cache_take (usage : Usage Connection)
    (result : Except StoreError Binary × Store Connection) :
    (usage.take result).store.cache = result.2.cache := by
  obtain ⟨outcome, after⟩ := result
  cases outcome <;> rfl

/-- The binary that an operation gave, if it gave one, joins those in hand. -/
theorem hands_take (usage : Usage Connection)
    (result : Except StoreError Binary × Store Connection) :
    (usage.take result).hands = result.1.toOption.toList ++ usage.hands := by
  obtain ⟨outcome, after⟩ := result
  cases outcome <;> rfl

theorem deferred_take (usage : Usage Connection)
    (result : Except StoreError Binary × Store Connection) :
    (usage.take result).deferred = usage.deferred := by
  obtain ⟨outcome, after⟩ := result
  cases outcome <;> rfl

variable [Remote Connection]

def perform (usage : Usage Connection) : Operation → Usage Connection
  | .put reader => usage.take (usage.store.put reader)
  | .get fingerprint => usage.take (usage.store.get fingerprint)
  | .length fingerprint => { usage with store := (usage.store.length fingerprint).2 }
  | .remove fingerprint => { usage with store := (usage.store.remove fingerprint).2 }
  | .list => { usage with store := usage.store.list.2 }
  | .start =>
    match usage.store.startCollection with
    | (.ok _, store) => { usage with store := store, marks := [] }
    | (.error _, store) => { usage with store := store }
  | .mark fingerprint =>
    match usage.store.mark fingerprint with
    | (.ok _, store) => { usage with store := store, marks := fingerprint :: usage.marks }
    | (.error _, store) => { usage with store := store }
  | .stop delete elapsed =>
    { usage with store := (usage.store.stopCollection delete elapsed).2 }
  | .clone binary =>
    if binary ∈ usage.hands then
      { usage with
        store := { usage.store with cache := usage.store.cache.hold binary.entry }
        binaries := binary :: usage.binaries }
    else usage
  | .drop binary =>
    if binary ∈ usage.binaries then
      { usage with
        store := usage.store.release binary
        binaries := usage.binaries.erase binary }
    else usage
  | .defer fingerprint =>
    { usage with deferred := LazyBinary.ofFingerprint fingerprint :: usage.deferred }
  | .fetch deferred => usage.replace deferred (deferred.fetch usage.store).2
  | .fetchFile deferred => usage.replace deferred (deferred.fetchFile usage.store).2
  | .fetchLength deferred => usage.replace deferred (deferred.fetchLength usage.store).2
  | .dropDeferred deferred =>
    if deferred ∈ usage.deferred then
      { usage with
        store := deferred.drop usage.store
        deferred := usage.deferred.erase deferred }
    else usage

/-- The usage when the folder has been changed. -/
def withFolder (usage : Usage Connection) (folder : Folder) : Usage Connection :=
  { usage with
    store := { usage.store with cache := { usage.store.cache with folder := folder } } }

def step (usage : Usage Connection) : Step Connection → Usage Connection
  | .act operation => usage.perform operation
  | .surround locked medium =>
    usage.withFolder
      { usage.store.cache.folder with
        locked := locked
        medium := { medium with reached := [], flushes := 0 } }
  | .elsewhere change =>
    { usage with store := { usage.store with connection := change usage.store.connection } }
  | .alter folder => usage.withFolder folder
  | .putWhile meanwhile reader => usage.take (usage.store.putWhile meanwhile reader)

def run : List (Step Connection) → Usage Connection → Usage Connection
  | [], usage => usage
  | taken :: rest, usage => run rest (usage.step taken)

variable {usage : Usage Connection}

/-! ### The collection session of a run -/

theorem session_start (usage : Usage Connection) :
    (usage.perform .start).session = usage.session.perform .start := by
  simp only [perform, startCollection, session, Collector.Session.perform]
  cases usage.store.collector.start <;> rfl

theorem session_mark (usage : Usage Connection) (fingerprint : Fingerprint) :
    (usage.perform (.mark fingerprint)).session = usage.session.perform (.mark fingerprint) := by
  simp only [perform, Store.mark, session, Collector.Session.perform]
  cases usage.store.collector.mark fingerprint <;> rfl

theorem session_stop (usage : Usage Connection) (delete : Bool) (elapsed : UInt64) :
    (usage.perform (.stop delete elapsed)).session =
      usage.session.perform (.stop delete elapsed []) := by
  simp only [perform, stopCollection, session, Collector.stop, Collector.Session.perform,
    Collector.stopWhile, Collector.Session.performAll]
  cases usage.store.collector.beginSweep <;> rfl

omit [Remote Connection] in
private theorem session_take (usage : Usage Connection)
    {result : Except StoreError Binary × Store Connection}
    (kept : result.2.collector = usage.store.collector) :
    (usage.take result).session = { usage.session with connection := result.2.connection } := by
  obtain ⟨outcome, after⟩ := result
  cases outcome <;> simp only [take, session] <;> rw [kept]

omit [Remote Connection] in
private theorem session_replace (usage : Usage Connection) (deferred : LazyBinary)
    {result : LazyBinary × Store Connection}
    (kept : result.2.collector = usage.store.collector) :
    (usage.replace deferred result).session =
      { usage.session with connection := (usage.replace deferred result).store.connection } := by
  unfold replace
  split
  · simp only [session]
    rw [kept]
  · rfl

/-- Every operation is a step of the collection session: one of its calls, or a
use of the remote by others. -/
theorem exists_session_perform (usage : Usage Connection) (operation : Operation) :
    ∃ called, (usage.perform operation).session = usage.session.step called := by
  cases operation with
  | start => exact ⟨.call .start, session_start usage⟩
  | mark fingerprint => exact ⟨.call (.mark fingerprint), session_mark usage fingerprint⟩
  | stop delete elapsed =>
    exact ⟨.call (.stop delete elapsed []), session_stop usage delete elapsed⟩
  | put reader => exact ⟨.elsewhere _, session_take usage (putWhile_collector _ _ _)⟩
  | get fingerprint => exact ⟨.elsewhere _, session_take usage (get_collector _ _)⟩
  | fetch deferred =>
    exact ⟨.elsewhere _, session_replace usage deferred (deferred.fetch_collector _)⟩
  | fetchFile deferred =>
    exact ⟨.elsewhere _, session_replace usage deferred (deferred.fetch_collector _)⟩
  | fetchLength deferred =>
    exact ⟨.elsewhere _, session_replace usage deferred (deferred.fetchLength_collector _)⟩
  | clone binary =>
    refine ⟨.elsewhere usage.store.connection, ?_⟩
    simp only [perform]
    split <;> rfl
  | drop binary =>
    refine ⟨.elsewhere usage.store.connection, ?_⟩
    simp only [perform]
    split <;> rfl
  | dropDeferred deferred =>
    refine ⟨.elsewhere usage.store.connection, ?_⟩
    simp only [perform]
    split
    · simp [session, Collector.Session.step]
    · rfl
  | _ => exact ⟨.elsewhere _, rfl⟩

private theorem exists_session_step (usage : Usage Connection) (taken : Step Connection) :
    ∃ called, (usage.step taken).session = usage.session.step called := by
  cases taken with
  | act operation => exact exists_session_perform usage operation
  | putWhile meanwhile reader =>
    exact ⟨.elsewhere _, session_take usage (putWhile_collector _ _ _)⟩
  | _ => exact ⟨.elsewhere _, rfl⟩

/-- While the collector is marking, it has the marks of the usage. -/
theorem sound_session_step (sound : usage.session.Sound) (taken : Step Connection) :
    (usage.step taken).session.Sound := by
  obtain ⟨called, same⟩ := exists_session_step usage taken
  rw [same]
  exact sound.step called

theorem sound_session_run (sound : usage.session.Sound) (steps : List (Step Connection)) :
    (run steps usage).session.Sound := by
  induction steps generalizing usage with
  | nil => exact sound
  | cons taken rest inductionHypothesis =>
    exact inductionHypothesis (sound_session_step sound taken)

end Usage

end ContentStore.Store
