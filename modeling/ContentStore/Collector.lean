import ContentStore.Remote

/-!
Contract: collecting the objects of a bucket that nobody refers to.

A session goes from idle through marking and sweeping back to idle.  While it
is marking, callers mark the fingerprints that they refer to.  The sweep lists
the bucket and counts the objects that are live, because their key or their
entity tag is a marked fingerprint, and those that are not; the latter it
deletes if it is told to.

Owns:
- `Collector`, the phase, the marks and the counters of a session;
- `start`, `mark` and `stop`, each of which is refused in the wrong phase;
- `sweep`, which ends at the first call that fails, and at the first sum of sizes
  that leaves its word.

Counters are 64-bit words.  Sizes are what the remote tells, so that their sums
may leave a word: then the stop does not return, and the session stays in its
sweep.

Does not own: the bucket, which fingerprints callers mark, and the clock.
-/

namespace ContentStore

/-- Where a session stands. -/
inductive Phase where
  | idle
  | marking
  | sweeping
deriving DecidableEq, Repr

def Phase.name : Phase → String
  | .idle => "Idle"
  | .marking => "Marking"
  | .sweeping => "Sweeping"

/-- What a sweep counts. -/
structure Tally where
  numLive : UInt64
  sizeLive : UInt64
  numCollected : UInt64
  sizeCollected : UInt64
  /-- The time from the start of the session to the end of its sweep. -/
  durationMillis : UInt64
deriving DecidableEq, Repr

namespace Tally

/-- The counters before anything is counted. -/
def zero : Tally :=
  ⟨0, 0, 0, 0, 0⟩

/-- Add a size to a sum of sizes, unless the result leaves its word. -/
def add? (sum size : UInt64) : Option UInt64 :=
  if sum.toNat + size.toNat < UInt64.size then some (sum + size) else none

/-- Count an object that is live.  A list in memory has fewer objects than a word
can number, so that only the sizes may be too large. -/
def addLive? (tally : Tally) (size : UInt64) : Option Tally :=
  (add? tally.sizeLive size).map fun sizeLive =>
    { tally with numLive := tally.numLive + 1, sizeLive := sizeLive }

/-- Count an object that is not live. -/
def addCollected? (tally : Tally) (size : UInt64) : Option Tally :=
  (add? tally.sizeCollected size).map fun sizeCollected =>
    { tally with numCollected := tally.numCollected + 1, sizeCollected := sizeCollected }

def lasting (durationMillis : UInt64) (tally : Tally) : Tally :=
  { tally with durationMillis := durationMillis }

end Tally

/-- What ends a call before its time. -/
inductive Interruption (Cause : Type) where
  | failure (cause : Cause)
  /-- A sum of sizes that leaves its word, at which the thread of the call is given
  up. -/
  | overflow
deriving DecidableEq

def Interruption.map {Cause Reason : Type} (wrap : Cause → Reason) :
    Interruption Cause → Interruption Reason
  | .failure cause => .failure (wrap cause)
  | .overflow => .overflow

structure Collector where
  phase : Phase
  marked : List Fingerprint
  /-- The counters of the last session that succeeded, if none began since. -/
  status : Tally
deriving DecidableEq

namespace Collector

def idle : Collector :=
  ⟨.idle, [], Tally.zero⟩

def inProgress (collector : Collector) : Bool :=
  collector.phase != .idle

def id (bucket : String) : String :=
  "s3:" ++ bucket

def describe (collector : Collector) (bucket : String) : String :=
  "S3GarbageCollector \x7b bucket: " ++ Text.quoted bucket ++ ", phase: " ++
    collector.phase.name ++ ", marked: " ++ Text.Decimal.text collector.marked.length ++ " \x7d"

def start (collector : Collector) : Except StoreError Collector :=
  match collector.phase with
  | .idle => .ok ⟨.marking, [], Tally.zero⟩
  | _ => .error .alreadyStarted

def mark (collector : Collector) (fingerprint : Fingerprint) : Except StoreError Collector :=
  match collector.phase with
  | .marking => .ok { collector with marked := collector.marked.insert fingerprint }
  | _ => .error .notStarted

/-- Go from marking to sweeping, and take the marks along. -/
def beginSweep (collector : Collector) : Except StoreError (List Fingerprint × Collector) :=
  match collector.phase with
  | .marking => .ok (collector.marked, { collector with phase := .sweeping, marked := [] })
  | _ => .error .notStarted

/-- Go back to idle, unless the sweep was given up.  Only a sweep that succeeded
leaves its counters. -/
def endSweep (collector : Collector) (outcome : Except (Interruption StoreError) Tally) :
    Collector :=
  match outcome with
  | .ok tally => { collector with phase := .idle, status := tally }
  | .error (.failure _) => { collector with phase := .idle }
  | .error .overflow => collector

/-- Whether an object is live: its key or its entity tag is marked. -/
def isLive (marked : List Fingerprint) (object : ListedObject) : Bool :=
  (Fingerprint.ofText? object.key).any (marked.contains ·) ||
    object.fingerprint?.any (marked.contains ·)

section Sweep

variable {Connection : Type} [Remote Connection]

/-- Count listed objects on top of a tally, and delete those that are not live
if `delete` is set.  An object is counted before it is deleted. -/
def sweepObjects (marked : List Fingerprint) (delete : Bool) :
    List ListedObject → Tally → Connection →
      Except (Interruption StoreError) Tally × Connection
  | [], tally, connection => (.ok tally, connection)
  | object :: rest, tally, connection =>
    if isLive marked object then
      match tally.addLive? object.size with
      | none => (.error .overflow, connection)
      | some counted => sweepObjects marked delete rest counted connection
    else
      match tally.addCollected? object.size with
      | none => (.error .overflow, connection)
      | some counted =>
        if delete then
          match Remote.delete object.key connection with
          | (.ok _, after) => sweepObjects marked delete rest counted after
          | (.error cause, after) => (.error (.failure cause), after)
        else sweepObjects marked delete rest counted connection

def sweep (marked : List Fingerprint) (delete : Bool) (connection : Connection) :
    Except (Interruption StoreError) Tally × Connection :=
  match Remote.list connection with
  | (.ok objects, after) => sweepObjects marked delete objects Tally.zero after
  | (.error cause, after) => (.error (.failure cause), after)

/-- End a session with a sweep, when `elapsed` milliseconds have passed since its
start.  The bucket and the collector may be used by others when the sweep has
begun and before the listing is made; `meanwhile` is what they do, and its result
is passed on. -/
def stopWhile {Result : Type}
    (meanwhile : Collector → Connection → Result × Collector × Connection)
    (delete : Bool) (elapsed : UInt64) (collector : Collector) (connection : Connection) :
    Except (Interruption StoreError) Tally × Option Result × Collector × Connection :=
  match collector.beginSweep with
  | .error cause => (.error (.failure cause), none, collector, connection)
  | .ok (marked, sweeping) =>
    let (result, disturbed, used) := meanwhile sweeping connection
    let (swept, after) := sweep marked delete used
    let outcome := swept.map (Tally.lasting elapsed)
    (outcome, some result, disturbed.endSweep outcome, after)

/-- End a session with a sweep that nobody disturbs. -/
def stop (delete : Bool) (elapsed : UInt64) (collector : Collector) (connection : Connection) :
    Except (Interruption StoreError) Tally × Collector × Connection :=
  let (outcome, _, after) := stopWhile (fun sweeping used => ((), sweeping, used))
    delete elapsed collector connection
  (outcome, after)

end Sweep

end Collector

end ContentStore
