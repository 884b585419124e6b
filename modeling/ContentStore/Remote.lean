import ContentStore.Listing

/-!
Contract: what the store asks of a remote bucket.

Owns:
- `Presence` and `Removal`, the answers to two of the calls;
- `Remote`, the calls on a bucket through a connection of any kind;
- `Remote.putFile`, which stores a file that may be unreadable.

Each call gives its outcome and the connection after it, whether it succeeds or
fails.

Does not own: any particular remote.
-/

namespace ContentStore

/-- Whether a bucket holds an object under a key. -/
inductive Presence where
  /-- It does, of this many octets. -/
  | present (length : Nat)
  | absent
deriving DecidableEq, Repr

/-- The length of a present object; an absent one has none. -/
def Presence.length : Presence → Nat
  | .present length => length
  | .absent => 0

/-- What became of an object that was to be deleted. -/
inductive Removal where
  | deleted
  /-- There was no such object. -/
  | alreadyAbsent
deriving DecidableEq, Repr

/-- A bucket behind a connection. -/
class Remote (Connection : Type) where
  bucket : Connection → String
  /-- Whether there is an object under a key. -/
  head : String → Connection → Except StoreError Presence × Connection
  /-- Fetch the object under a key.  The octets are those that reached the
  receiving file, which on a failure may be any; the number is how many the
  remote says there were. -/
  get : String → Connection → (Except StoreError Nat × Bytes) × Connection
  /-- Store the content of a file under its fingerprint, which is given back. -/
  put : Bytes → Connection → Except StoreError Fingerprint × Connection
  /-- Delete the object under a key. -/
  delete : String → Connection → Except StoreError Removal × Connection
  /-- All objects in the bucket, as far as the remote lists them. -/
  list : Connection → Except StoreError (List ListedObject) × Connection

/-- Store a file under its fingerprint, if it can be read. -/
def Remote.putFile {Connection : Type} [Remote Connection] (file : Except IoKind Bytes)
    (connection : Connection) : Except StoreError Fingerprint × Connection :=
  match file with
  | .ok content => Remote.put content connection
  | .error kind => (.error (.system kind), connection)

end ContentStore
