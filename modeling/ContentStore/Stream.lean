import ContentStore.StoreError

/-!
Contract: readers, writers, and copying one into the other under a digest.

A reader is the list of what its reads will give; a writer is the record of
how its writes will go and of what reached it.

Owns:
- `Reader.read`, one read of at most `bufferSize` octets;
- `Writer.write`, one write, which may take less than it is given, and
  `Writer.writeAll`, which repeats it until all is taken;
- `copyDigest`, which hashes what it copies, and `digestReader`, which only
  hashes;
- the content of a reader: what it yields before its end or first failure.

Interrupted reads and writes are repeated; an interrupted flush is not.

Does not own: files and their names.
-/

namespace ContentStore

/-- The most octets that one read asks for. -/
def bufferSize : Nat := 65536

/-- What a reader has ready next. -/
inductive Chunk where
  /-- Octets; none at all are the end of the input. -/
  | octets (content : Bytes)
  /-- The next read fails once. -/
  | failure (kind : IoKind)
deriving DecidableEq, Repr

/-- A reader, as the list of what its reads will give. -/
abbrev Reader := List Chunk

namespace Reader

/-- The reader that yields a content and then ends. -/
def ofContent (content : Bytes) : Reader :=
  [.octets content]

/-- One read of at most `limit` octets, and the reader after it. -/
def read (limit : Nat) : Reader → Except IoKind Bytes × Reader
  | [] => (.ok [], [])
  | .failure kind :: rest => (.error kind, rest)
  | .octets content :: rest =>
    if content.length ≤ limit then (.ok content, rest)
    else (.ok (content.take limit), .octets (content.drop limit) :: rest)

/-- A bound on the number of reads until the reader ends. -/
def weight : Reader → Nat
  | [] => 0
  | .failure _ :: rest => 1 + weight rest
  | .octets content :: rest => 1 + content.length + weight rest

/-- What a reader yields before its end or its first failure other than an
interruption, and that failure. -/
def content : Reader → Bytes × Option IoKind
  | [] => ([], none)
  | .failure .interrupted :: rest => content rest
  | .failure kind :: _ => ([], some kind)
  | .octets [] :: _ => ([], none)
  | .octets chunk :: rest => (chunk ++ (content rest).1, (content rest).2)

/-- A read that gives octets brings the reader nearer to its end. -/
theorem weight_read_lt {limit : Nat} {reader : Reader} {octets : Bytes} {after : Reader}
    (positive : 0 < limit) (given : reader.read limit = (.ok octets, after))
    (some_octets : octets ≠ []) : after.weight < reader.weight := by
  match reader with
  | [] => simp [read] at given; exact absurd given.1 some_octets
  | .failure _ :: _ => simp [read] at given
  | .octets content :: rest =>
    simp only [read] at given
    split at given
    · simp only [Prod.mk.injEq, Except.ok.injEq] at given
      obtain ⟨_, rfl⟩ := given
      simp only [weight]
      omega
    · simp only [Prod.mk.injEq, Except.ok.injEq] at given
      obtain ⟨_, rfl⟩ := given
      simp only [weight, List.length_drop]
      omega

/-- A read that fails brings the reader nearer to its end. -/
theorem weight_read_lt_of_error {limit : Nat} {reader : Reader} {kind : IoKind}
    {after : Reader} (given : reader.read limit = (.error kind, after)) :
    after.weight < reader.weight := by
  match reader with
  | [] => simp [read] at given
  | .failure _ :: rest =>
    simp only [read, Prod.mk.injEq] at given
    obtain ⟨_, rfl⟩ := given
    simp only [weight]
    omega
  | .octets content :: rest =>
    simp only [read] at given
    split at given <;> simp at given

end Reader

/-- How one write goes. -/
inductive WriteTurn where
  /-- The write takes at most this many octets. -/
  | atMost (limit : Nat)
  /-- The write fails once. -/
  | failure (kind : IoKind)
deriving DecidableEq, Repr

/-- A writer: how its writes will go, and what reached it. -/
structure Writer where
  /-- How the first writes go, one turn for each. -/
  turns : List WriteTurn
  /-- The most octets that any later write takes. -/
  perWrite : Option Nat
  /-- The most octets that the writer still takes in all. -/
  room : Option Nat
  /-- How a write to a full writer fails; without it, such a write takes nothing. -/
  whenFull : Option IoKind
  flushFailure : Option IoKind
  /-- The octets that reached the writer, latest first. -/
  reached : Bytes
  /-- How often the writer was flushed. -/
  flushes : Nat
deriving DecidableEq, Repr

namespace Writer

def unlimited : Writer :=
  ⟨[], none, none, none, none, [], 0⟩

/-- The octets that reached the writer, in order. -/
def written (writer : Writer) : Bytes :=
  writer.reached.reverse

/-- The smaller of two limits that may be absent. -/
def tighter : Option Nat → Option Nat → Option Nat
  | none, limit => limit
  | limit, none => limit
  | some left, some right => some (min left right)

def allowed (limit : Option Nat) (octets : Bytes) : Bytes :=
  match limit with
  | none => octets
  | some limit => octets.take limit

/-- Take a beginning of the octets, as far as the limit of this write and the
room in the writer allow. -/
def take (writer : Writer) (limit : Option Nat) (octets : Bytes) :
    Except IoKind Nat × Writer :=
  match writer.room, writer.whenFull with
  | some 0, some kind => (.error kind, writer)
  | room, _ =>
    let taken := allowed (tighter room limit) octets
    (.ok taken.length,
      { writer with
        reached := taken.reverse ++ writer.reached
        room := room.map (· - taken.length) })

/-- One write: how many octets it takes, or how it fails. -/
def write (writer : Writer) (octets : Bytes) : Except IoKind Nat × Writer :=
  match writer.turns with
  | .failure kind :: turns => (.error kind, { writer with turns := turns })
  | .atMost limit :: turns => ({ writer with turns := turns }).take (some limit) octets
  | [] => writer.take writer.perWrite octets

def flush (writer : Writer) : Except IoKind Unit × Writer :=
  let flushed := { writer with flushes := writer.flushes + 1 }
  match writer.flushFailure with
  | some kind => (.error kind, flushed)
  | none => (.ok (), flushed)

/-- Write all octets, with at most `fuel` writes. -/
def writeAllWithin : (fuel : Nat) → Writer → Bytes → Except IoKind Unit × Writer
  | _, writer, [] => (.ok (), writer)
  | 0, writer, _ => (.error .other, writer)
  | fuel + 1, writer, octets =>
    match writer.write octets with
    | (.ok 0, after) => (.error .writeZero, after)
    | (.ok taken, after) => writeAllWithin fuel after (octets.drop taken)
    | (.error .interrupted, after) => writeAllWithin fuel after octets
    | (.error kind, after) => (.error kind, after)

/-- Write all octets: interrupted writes are repeated, and a write that takes
nothing is a failure.  Each write takes an octet or spends a turn, so that
many writes are enough, except for a writer that interrupts for ever once it
is full. -/
def writeAll (writer : Writer) (octets : Bytes) : Except IoKind Unit × Writer :=
  writeAllWithin (octets.length + writer.turns.length) writer octets

end Writer

/-- Copy a reader into a writer, with at most `fuel` reads, hashing every octet
that the writer took. -/
def copyDigestWithin : (fuel : Nat) → Reader → Writer → Hash.Progress Hash.Md5.Words →
    Except IoKind Digest × Writer
  | 0, _, writer, _ => (.error .other, writer)
  | fuel + 1, reader, writer, progress =>
    match reader.read bufferSize with
    | (.error .interrupted, after) => copyDigestWithin fuel after writer progress
    | (.error kind, _) => (.error kind, writer)
    | (.ok [], _) =>
      match writer.flush with
      | (.ok (), flushed) => (.ok ⟨Hash.Md5.scheme.finish progress, Hash.Md5.length_finish _⟩, flushed)
      | (.error kind, flushed) => (.error kind, flushed)
    | (.ok octets, after) =>
      let hashed := Hash.Md5.scheme.update progress octets
      match writer.writeAll octets with
      | (.ok (), filled) => copyDigestWithin fuel after filled hashed
      | (.error kind, failed) => (.error kind, failed)

/-- Copy a reader to its end into a writer, flush the writer, and give the
fingerprint of what was copied. -/
def copyDigest (reader : Reader) (writer : Writer) : Except IoKind Fingerprint × Writer :=
  let (outcome, after) :=
    copyDigestWithin (reader.weight + 1) reader writer Hash.Md5.scheme.start
  (outcome.map Fingerprint.ofDigest, after)

def digestReader (reader : Reader) : Except IoKind Fingerprint :=
  (copyDigest reader Writer.unlimited).1

end ContentStore
