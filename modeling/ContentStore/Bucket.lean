import ContentStore.Remote

/-!
Contract: a bucket in memory, as a remote.

Owns:
- `Bucket`, a map from keys to objects that keeps a log of the calls made;
- `Fault`, by which the next call of a kind fails, or answers something other
  than the truth;
- the calls of `Remote` on such a bucket.

Without faults a bucket is truthful: what is put under a fingerprint is present
and fetched until it is deleted, and the listing names each object once, in
ascending order of keys.

Does not own: how a remote is reached over a network.
-/

namespace ContentStore

structure StoredObject where
  content : Bytes
  etag : String
  size : Nat
  /-- A ghost is listed, but absent to every other call. -/
  isGhost : Bool
deriving DecidableEq

/-- The kinds of calls. -/
inductive Verb where
  | head
  | get
  | put
  | delete
  | list
deriving DecidableEq, Repr

/-- How a call fails. -/
inductive FaultCause where
  | remoteFailure (status : Nat) (body : String)
  | uploadFailed (status : Nat)
  | notFound
deriving DecidableEq, Repr

def FaultCause.error (key : String) : FaultCause → StoreError
  | .remoteFailure status body => .remoteFailure status body
  | .uploadFailed status => .uploadFailed key status
  | .notFound => .notFound key

/-- What a fault does to a call. -/
inductive FaultEffect where
  /-- The call fails; a fetch has written some octets before. -/
  | failure (cause : FaultCause) (written : Bytes)
  /-- The call has no effect and answers this length, this content or this
  name, whichever it is asked for.  Deletions and listings go on as usual. -/
  | lie (length : Option Nat) (content : Bytes) (name : String)
deriving DecidableEq

/-- A fault that the next call of its kind, and on its key if it has one, runs
into. -/
structure Fault where
  verb : Verb
  key : Option String
  effect : FaultEffect
deriving DecidableEq

def Fault.isFor (verb : Verb) (key : String) (fault : Fault) : Bool :=
  fault.verb == verb && fault.key.all (· == key)

structure Bucket where
  name : String
  /-- The objects, in ascending order of keys. -/
  objects : List (String × StoredObject)
  faults : List Fault
  /-- The calls made, with their keys, earliest first. -/
  calls : List (Verb × String)

namespace Bucket

def empty (name : String) : Bucket :=
  ⟨name, [], [], []⟩

/-- Put an object under a key into a list in ascending order of keys. -/
def place (key : String) (object : StoredObject) :
    List (String × StoredObject) → List (String × StoredObject)
  | [] => [(key, object)]
  | (other, kept) :: rest =>
    if key < other then (key, object) :: (other, kept) :: rest
    else if key = other then (key, object) :: rest
    else (other, kept) :: place key object rest

/-- Put an object under a key, in place of the one that stood there. -/
def insert (bucket : Bucket) (key : String) (object : StoredObject) : Bucket :=
  { bucket with objects := place key object bucket.objects }

/-- Take the object under a key out of the bucket. -/
def erase (bucket : Bucket) (key : String) : Bucket :=
  { bucket with objects := bucket.objects.filter fun object => object.1 ≠ key }

def listed? (bucket : Bucket) (key : String) : Option StoredObject :=
  bucket.objects.lookup key

/-- The object under a key, unless it is a ghost. -/
def find? (bucket : Bucket) (key : String) : Option StoredObject :=
  (bucket.listed? key).filter fun object => !object.isGhost

def objectOf (content : Bytes) : StoredObject :=
  ⟨content, (Fingerprint.ofContent content).text, content.length, false⟩

/-- Set a fault for a later call. -/
def addFault (bucket : Bucket) (fault : Fault) : Bucket :=
  { bucket with faults := bucket.faults ++ [fault] }

/-- Note a call, and use up the first fault that is for it. -/
def call (bucket : Bucket) (verb : Verb) (key : String) : Option FaultEffect × Bucket :=
  ((bucket.faults.find? (Fault.isFor verb key)).map Fault.effect,
    { bucket with
      calls := bucket.calls ++ [(verb, key)]
      faults := bucket.faults.eraseP (Fault.isFor verb key) })

def head (key : String) (bucket : Bucket) : Except StoreError Presence × Bucket :=
  match bucket.call .head key with
  | (some (.failure cause _), after) => (.error (cause.error key), after)
  | (some (.lie (some length) _ _), after) => (.ok (.present length), after)
  | (some (.lie none _ _), after) => (.ok .absent, after)
  | (none, after) =>
    match after.find? key with
    | some object => (.ok (.present object.size), after)
    | none => (.ok .absent, after)

/-- Fetch the object under a key. -/
def get (key : String) (bucket : Bucket) : (Except StoreError Nat × Bytes) × Bucket :=
  match bucket.call .get key with
  | (some (.failure cause written), after) => ((.error (cause.error key), written), after)
  | (some (.lie _ content _), after) => ((.ok content.length, content), after)
  | (none, after) =>
    match after.find? key with
    | some object => ((.ok object.content.length, object.content), after)
    | none => ((.error (.notFound key), []), after)

def put (content : Bytes) (bucket : Bucket) : Except StoreError Fingerprint × Bucket :=
  let fingerprint := Fingerprint.ofContent content
  match bucket.call .put fingerprint.text with
  | (some (.failure cause _), after) => (.error (cause.error fingerprint.text), after)
  | (some (.lie _ _ name), after) => (Fingerprint.parse name, after)
  | (none, after) => (.ok fingerprint, after.insert fingerprint.text (objectOf content))

def delete (key : String) (bucket : Bucket) : Except StoreError Removal × Bucket :=
  match bucket.call .delete key with
  | (some (.failure cause _), after) => (.error (cause.error key), after)
  | (_, after) =>
    match after.find? key with
    | some _ => (.ok .deleted, after.erase key)
    | none => (.ok .alreadyAbsent, after)

def list (bucket : Bucket) : Except StoreError (List ListedObject) × Bucket :=
  match bucket.call .list "" with
  | (some (.failure cause _), after) => (.error (cause.error ""), after)
  | (_, after) =>
    (.ok (after.objects.map fun (key, object) =>
      ListedObject.named key object.etag (UInt64.ofNat object.size)), after)

instance : Remote Bucket where
  bucket := Bucket.name
  head := Bucket.head
  get := Bucket.get
  put := Bucket.put
  delete := Bucket.delete
  list := Bucket.list

end Bucket

end ContentStore
