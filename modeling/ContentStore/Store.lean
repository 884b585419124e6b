import ContentStore.Cache
import ContentStore.Collector

/-!
Contract: the binary store, a bucket with a cache in front of it.

Owns:
- `Binary`, a stored content with the cached file that holds it;
- `put`, `get`, `length` and `remove`;
- `LazyBinary`, whose content and length are fetched when they are first asked
  for, and once only.

A content is cached and stored under its fingerprint, so that storing it again
changes nothing.  A downloaded content enters the cache only if it hashes to
the fingerprint it was asked for.  Removing a binary leaves the cache alone.

Does not own: the remote, the order in which the cache evicts.
-/

namespace ContentStore

/-- A stored content.  Whoever has it holds a handle on its cached file. -/
structure Binary where
  entry : Entry
  fingerprint : Fingerprint
  /-- The name of the repository that gave the binary. -/
  repository : String
deriving DecidableEq

namespace Binary

def length (binary : Binary) : Nat :=
  binary.entry.size

/-- Two binaries are the same if fingerprint and repository are. -/
def same (left right : Binary) : Bool :=
  left.fingerprint == right.fingerprint && left.repository == right.repository

end Binary

/-- A binary store. -/
structure Store (Connection : Type) where
  /-- The name reported on binaries. -/
  repository : String
  cache : Cache
  connection : Connection
  collector : Collector

namespace Store

variable {Connection : Type} [Remote Connection]

/-- A store with an empty cache in a folder of its own. -/
def overRemote (repository : String) (budget : Nat) (connection : Connection) :
    Store Connection :=
  ⟨repository, Cache.empty budget false, connection, Collector.idle⟩

def bucket (store : Store Connection) : String :=
  Remote.bucket store.connection

def binaryOf (store : Store Connection) (fingerprint : Fingerprint) (entry : Entry) : Binary :=
  ⟨entry, fingerprint, store.repository⟩

def release (store : Store Connection) (binary : Binary) : Store Connection :=
  { store with cache := store.cache.release binary.entry }

def read (store : Store Connection) (binary : Binary) : Except IoKind Bytes :=
  store.cache.read binary.entry

/-- Store a file under its fingerprint unless the remote holds it already. -/
def upload (fingerprint : Fingerprint) (file : Except IoKind Bytes) (connection : Connection) :
    Except StoreError Unit × Connection :=
  match Remote.head fingerprint.text connection with
  | (.error cause, after) => (.error cause, after)
  | (.ok (.present _), after) => (.ok (), after)
  | (.ok .absent, after) =>
    match Remote.putFile file after with
    | (.error cause, done) => (.error cause, done)
    | (.ok stored, done) =>
      if stored = fingerprint then (.ok (), done)
      else (.error (.io (.changedBeforeUpload fingerprint stored)), done)

/-- Store the content of a reader.  Others may change the folder when the
content has been cached and before it is uploaded; `meanwhile` is what they make
of it. -/
def putWhile (meanwhile : Folder → Folder) (reader : Reader) (store : Store Connection) :
    Except StoreError Binary × Store Connection :=
  match store.cache.receive reader with
  | (.error kind, cache) => (.error (.system kind), { store with cache := cache })
  | (.ok (fingerprint, temporary), received) =>
    match received.insert fingerprint temporary with
    | (.error kind, cache) => (.error (.system kind), { store with cache := cache })
    | (.ok entry, inserted) =>
      let cache := { inserted with folder := meanwhile inserted.folder }
      match upload fingerprint (cache.read entry) store.connection with
      | (.ok (), connection) =>
        (.ok (store.binaryOf fingerprint entry),
          { store with cache := cache, connection := connection })
      | (.error cause, connection) =>
        (.error cause, { store with cache := cache.release entry, connection := connection })

/-- Store the content of a reader, while nobody else changes the folder. -/
def put (reader : Reader) (store : Store Connection) :
    Except StoreError Binary × Store Connection :=
  store.putWhile (fun folder => folder) reader

/-- Move a downloaded content into the cache, if it hashes to the fingerprint
it was asked for. -/
def accept (fingerprint : Fingerprint) (content : Bytes) (cache : Cache) :
    Except StoreError Entry × Cache :=
  let (temporary, folder) := cache.folder.create content
  let actual := Fingerprint.ofContent content
  if actual = fingerprint then
    match { cache with folder := folder }.insert fingerprint temporary with
    | (.ok entry, inserted) => (.ok entry, inserted)
    | (.error kind, refused) => (.error (.system kind), refused)
  else
    (.error (.digestMismatch fingerprint actual),
      { cache with folder := folder.discard temporary })

/-- The binary of a fingerprint, from the cache or from the remote. -/
def get (fingerprint : Fingerprint) (store : Store Connection) :
    Except StoreError Binary × Store Connection :=
  match store.cache.get? fingerprint with
  | (some entry, cache) => (.ok (store.binaryOf fingerprint entry), { store with cache := cache })
  | (none, cache) =>
    match Remote.get fingerprint.text store.connection with
    | ((.error cause, written), connection) =>
      let (temporary, folder) := cache.folder.create written
      (.error cause,
        { store with
          cache := { cache with folder := folder.discard temporary }
          connection := connection })
    | ((.ok _, written), connection) =>
      match accept fingerprint written cache with
      | (.ok entry, accepted) =>
        (.ok (store.binaryOf fingerprint entry),
          { store with cache := accepted, connection := connection })
      | (.error cause, refused) =>
        (.error cause, { store with cache := refused, connection := connection })

/-- The length of a remote object; an absent one has none. -/
def length (fingerprint : Fingerprint) (store : Store Connection) :
    Except StoreError Nat × Store Connection :=
  let (presence, connection) := Remote.head fingerprint.text store.connection
  (presence.map Presence.length, { store with connection := connection })

/-- Delete a remote object, if there is one. -/
def remove (fingerprint : Fingerprint) (store : Store Connection) :
    Except StoreError Unit × Store Connection :=
  let (removal, connection) := Remote.delete fingerprint.text store.connection
  (removal.map fun _ => (), { store with connection := connection })

def list (store : Store Connection) :
    Except StoreError (List ListedObject) × Store Connection :=
  let (objects, connection) := Remote.list store.connection
  (objects, { store with connection := connection })

def startCollection (store : Store Connection) : Except StoreError Unit × Store Connection :=
  match store.collector.start with
  | .ok collector => (.ok (), { store with collector := collector })
  | .error cause => (.error cause, store)

def mark (fingerprint : Fingerprint) (store : Store Connection) :
    Except StoreError Unit × Store Connection :=
  match store.collector.mark fingerprint with
  | .ok collector => (.ok (), { store with collector := collector })
  | .error cause => (.error cause, store)

/-- End a collection session with a sweep, when `elapsed` milliseconds have passed
since its start. -/
def stopCollection (delete : Bool) (elapsed : UInt64) (store : Store Connection) :
    Except (Interruption StoreError) Tally × Store Connection :=
  let (outcome, collector, connection) := store.collector.stop delete elapsed store.connection
  (outcome, { store with collector := collector, connection := connection })

/-- What diagnostics show of a store whose cache is in the folder `path`. -/
def describe (store : Store Connection) (path : String) : String :=
  "BinaryManager \x7b repository_name: " ++ Text.quoted store.repository ++ ", bucket: " ++
    Text.quoted store.bucket ++ ", cache: " ++ store.cache.describe path ++ " \x7d"

end Store

/-- A binary whose content and length are fetched when they are first asked
for. -/
structure LazyBinary where
  fingerprint : Fingerprint
  binary : Option Binary
  length : Option Nat
deriving DecidableEq

namespace LazyBinary

variable {Connection : Type} [Remote Connection]

/-- The binary of a fingerprint, of which nothing is fetched yet. -/
def ofFingerprint (fingerprint : Fingerprint) : LazyBinary :=
  ⟨fingerprint, none, none⟩

def isFetched (deferred : LazyBinary) : Bool :=
  deferred.binary.isSome

def fetch (deferred : LazyBinary) (store : Store Connection) :
    Except StoreError Binary × LazyBinary × Store Connection :=
  match deferred.binary with
  | some binary => (.ok binary, deferred, store)
  | none =>
    match store.get deferred.fingerprint with
    | (.ok binary, after) => (.ok binary, { deferred with binary := some binary }, after)
    | (.error cause, after) => (.error cause, deferred, after)

/-- Fetch the binary, and tell whether it has the expected fingerprint. -/
def fetchFile (deferred : LazyBinary) (store : Store Connection) :
    Except StoreError Bool × LazyBinary × Store Connection :=
  let (outcome, after) := deferred.fetch store
  (outcome.map fun binary => binary.fingerprint == deferred.fingerprint, after)

/-- The length of the remote object, asked for if it has not been. -/
def fetchLength (deferred : LazyBinary) (store : Store Connection) :
    Except StoreError Nat × LazyBinary × Store Connection :=
  match deferred.length with
  | some length => (.ok length, deferred, store)
  | none =>
    match store.length deferred.fingerprint with
    | (.ok length, after) => (.ok length, { deferred with length := some length }, after)
    | (.error cause, after) => (.error cause, deferred, after)

/-- Let go of the binary, if it has been fetched. -/
def drop (deferred : LazyBinary) (store : Store Connection) : Store Connection :=
  match deferred.binary with
  | some binary => store.release binary
  | none => store

end LazyBinary

end ContentStore
