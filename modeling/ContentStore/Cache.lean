import ContentStore.Folder

/-!
Contract: files on disk within a budget of octets.

Owns:
- `Entry`, a cached file, and the handles on entries that callers hold;
- `insert`, which moves a temporary file into the cache and then evicts the
  least recently used entries until the rest fits the budget;
- `get?`, which makes an entry the most recently used;
- `receive`, which writes a reader into a temporary file.

An entry on which a handle is held is never evicted, even if the budget is
exceeded meanwhile.  An evicted file that could not be unlinked is an orphan:
its size still counts, and unlinking it is tried again at later evictions.

Does not own: where the contents come from.
-/

namespace ContentStore

/-- A cached file. -/
structure Entry where
  /-- Tells the entry from all others that the cache has had. -/
  serial : Nat
  fingerprint : Fingerprint
  /-- The size of the file when it was inserted. -/
  size : Nat
deriving DecidableEq

def Entry.file (entry : Entry) : FileName :=
  .stored entry.fingerprint

structure Cache where
  /-- The most octets that the cache should hold. -/
  budget : Nat
  /-- The cached files, most recently used first. -/
  entries : List Entry
  /-- Evicted entries whose files are still on disk. -/
  orphans : List Entry
  /-- The sizes of all entries and orphans together. -/
  total : Nat
  /-- The entries on which handles are held, once for each handle. -/
  held : List Entry
  /-- How many entries there have been. -/
  issued : Nat
  folder : Folder
  /-- Whether the folder stays when the cache goes. -/
  keepsFolder : Bool

namespace Cache

/-- A cache without entries over an empty folder. -/
def empty (budget : Nat) (keepsFolder : Bool) : Cache :=
  ⟨budget, [], [], 0, [], 0, Folder.empty, keepsFolder⟩

def count (cache : Cache) : Nat :=
  cache.entries.length

def find? (cache : Cache) (fingerprint : Fingerprint) : Option Entry :=
  cache.entries.find? fun entry => entry.fingerprint = fingerprint

def contains (cache : Cache) (fingerprint : Fingerprint) : Bool :=
  (cache.find? fingerprint).isSome

def hold (cache : Cache) (entry : Entry) : Cache :=
  { cache with held := entry :: cache.held }

/-- Let go of one handle on an entry. -/
def release (cache : Cache) (entry : Entry) : Cache :=
  { cache with held := cache.held.erase entry }

/-- Make an entry the most recently used. -/
def refresh (cache : Cache) (entry : Entry) : Cache :=
  { cache with entries := entry :: cache.entries.erase entry }

/-- Look up a fingerprint, and hold the entry that is found. -/
def get? (cache : Cache) (fingerprint : Fingerprint) : Option Entry × Cache :=
  match cache.find? fingerprint with
  | some entry => (some entry, (cache.refresh entry).hold entry)
  | none => (none, cache)

def read (cache : Cache) (entry : Entry) : Except IoKind Bytes :=
  cache.folder.read entry.file

/-- Unlink the file of an entry that is cached no more.  The octets are free
once the file is gone; if it cannot be unlinked the entry is an orphan. -/
def dispose (cache : Cache) (entry : Entry) : Cache :=
  match cache.folder.clear? entry.file with
  | some folder => { cache with folder := folder, total := cache.total - entry.size }
  | none => { cache with orphans := cache.orphans ++ [entry] }

/-- Try again to unlink the orphans of a cache over its budget. -/
def retryOrphans (cache : Cache) : Cache :=
  if cache.total ≤ cache.budget then cache
  else cache.orphans.foldl dispose { cache with orphans := [] }

/-- Evict entries, in the given order, until the cache is within its budget;
the entry of `keep` and entries that are held stay. -/
def evictInOrder (keep : Fingerprint) : List Entry → Cache → Cache
  | [], cache => cache
  | entry :: later, cache =>
    if cache.total ≤ cache.budget then cache
    else if entry.fingerprint = keep ∨ entry ∈ cache.held then evictInOrder keep later cache
    else
      evictInOrder keep later
        (dispose { cache with entries := cache.entries.erase entry } entry)

/-- Make room: unlink orphans, then evict the least recently used entries. -/
def evict (keep : Fingerprint) (cache : Cache) : Cache :=
  evictInOrder keep cache.retryOrphans.entries.reverse cache.retryOrphans

/-- Forget the orphan whose file a rename has replaced. -/
def forgetOrphan (cache : Cache) (fingerprint : Fingerprint) : Cache :=
  match cache.orphans.find? fun orphan => orphan.fingerprint = fingerprint with
  | some orphan =>
    { cache with orphans := cache.orphans.erase orphan, total := cache.total - orphan.size }
  | none => cache

/-- Add an entry as the most recently used. -/
def add (cache : Cache) (fingerprint : Fingerprint) (size : Nat) : Entry × Cache :=
  let entry : Entry := ⟨cache.issued, fingerprint, size⟩
  (entry,
    { cache with
      entries := entry :: cache.entries
      total := cache.total + size
      issued := cache.issued + 1 })

/-- Move a temporary file into the cache under a fingerprint, and hold its
entry.  A file that is cached already stays as it is, and the temporary file is
unlinked. -/
def insert (cache : Cache) (fingerprint : Fingerprint) (temporary : FileName) :
    Except IoKind Entry × Cache :=
  match cache.find? fingerprint with
  | some entry =>
    (.ok entry,
      { (cache.refresh entry).hold entry with folder := cache.folder.discard temporary })
  | none =>
    match cache.folder.rename temporary (.stored fingerprint) with
    | .error kind => (.error kind, { cache with folder := cache.folder.discard temporary })
    | .ok folder =>
      let renamed := { cache with folder := folder }
      let (entry, added) :=
        (renamed.forgetOrphan fingerprint).add fingerprint (cache.folder.sizeOf temporary)
      (.ok entry, (added.evict fingerprint).hold entry)

/-- Write a reader into a temporary file, which is unlinked again if that
fails. -/
def receive (cache : Cache) (reader : Reader) :
    Except IoKind (Fingerprint × FileName) × Cache :=
  let (digest, writer) := copyDigest reader cache.folder.medium
  let (temporary, folder) := cache.folder.create writer.written
  match digest with
  | .ok fingerprint => (.ok (fingerprint, temporary), { cache with folder := folder })
  | .error kind => (.error kind, { cache with folder := folder.discard temporary })

/-- What diagnostics show of a cache over the folder `path`. -/
def describe (cache : Cache) (path : String) : String :=
  "FileCache \x7b dir: " ++ Text.quoted path ++ ", max_size: " ++ Text.Decimal.text cache.budget ++
    ", len: " ++ Text.Decimal.text cache.count ++ ", total_size: " ++
    Text.Decimal.text cache.total ++ " \x7d"

end Cache

end ContentStore
