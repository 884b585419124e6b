import ContentStore.Proofs.Bucket.Regular

/-!
Contract: sequences of calls on a remote.

Owns:
- `Remote.Call` and `Remote.Answer`, the calls on objects under fingerprints and
  what they give;
- `Remote.Call.after` and `Remote.Call.Tells`, what a map of contents becomes and
  what it makes of a call;
- that a regular bucket gives and keeps just this.

Does not own: calls under other keys.
-/

namespace ContentStore.Remote

inductive Call where
  | head (fingerprint : Fingerprint)
  | get (fingerprint : Fingerprint)
  /-- Store a file, of which this is what reading gives. -/
  | put (file : Except IoKind Bytes)
  | delete (fingerprint : Fingerprint)
  | list

/-- What a call gives, with the octets that a fetch has written. -/
inductive Answer where
  | presence (outcome : Except StoreError Presence)
  | content (outcome : Except StoreError Nat) (written : Bytes)
  | stored (outcome : Except StoreError Fingerprint)
  | removal (outcome : Except StoreError Removal)
  | listing (outcome : Except StoreError (List ListedObject))

/-- An answer with the objects of a listing in ascending order of their keys. -/
def Answer.inOrder : Answer → Answer
  | .listing (.ok objects) => .listing (.ok (ListedObject.inOrder objects))
  | answer => answer

/-- Whether a listing came in ascending order of keys. -/
def Answer.IsOrdered : Answer → Prop
  | .listing (.ok objects) => (objects.map ListedObject.key).Pairwise (· < ·)
  | _ => True

theorem Answer.IsOrdered.inOrder_eq {answer : Answer} (ordered : answer.IsOrdered) :
    answer.inOrder = answer := by
  cases answer with
  | listing outcome =>
    cases outcome with
    | ok objects =>
      show listing (.ok (ListedObject.inOrder objects)) = _
      rw [ListedObject.inOrder_eq (List.Perm.refl objects) ordered]
    | error cause => rfl
  | _ => rfl

section Runs

variable {Connection : Type} [Remote Connection]

def perform : Call → Connection → Answer × Connection
  | .head fingerprint, connection =>
    let (outcome, after) := Remote.head fingerprint.text connection
    (.presence outcome, after)
  | .get fingerprint, connection =>
    let ((outcome, written), after) := Remote.get fingerprint.text connection
    (.content outcome written, after)
  | .put file, connection =>
    let (outcome, after) := putFile file connection
    (.stored outcome, after)
  | .delete fingerprint, connection =>
    let (outcome, after) := Remote.delete fingerprint.text connection
    (.removal outcome, after)
  | .list, connection =>
    let (outcome, after) := Remote.list connection
    (.listing outcome, after)

/-- Make calls one after the other. -/
def run : List Call → Connection → List Answer × Connection
  | [], connection => ([], connection)
  | call :: rest, connection =>
    let (answer, after) := perform call connection
    let (answers, final) := run rest after
    (answer :: answers, final)

end Runs

/-! ## Calls on maps -/

namespace Call

/-- What becomes of a map. -/
def after (contents : Contents) : Call → Contents
  | .put (.ok content) =>
    Function.update contents (Fingerprint.ofContent content) (some content)
  | .delete fingerprint => Function.update contents fingerprint none
  | _ => contents

/-- Whether an answer tells the truth about a map.  A listing may have any
order. -/
def Tells (contents : Contents) : Call → Answer → Prop
  | .head fingerprint, answer =>
    answer = .presence (.ok (contents.presence fingerprint))
  | .get fingerprint, answer =>
    answer = .content (contents.download fingerprint).1 (contents.download fingerprint).2
  | .put (.ok content), answer => answer = .stored (.ok (Fingerprint.ofContent content))
  | .put (.error kind), answer => answer = .stored (.error (.system kind))
  | .delete fingerprint, answer =>
    answer = .removal (.ok (contents.removal fingerprint))
  | .list, answer =>
    ∃ entries, contents.Enumerates entries ∧
      answer = .listing (.ok (entries.map ListedObject.ofEntry))

variable {contents : Contents} {call : Call} {answer other : Answer}

/-- The truth about a map is the same up to the order of listings. -/
theorem Tells.inOrder_eq (tells : call.Tells contents answer)
    (tellsOther : call.Tells contents other) (ordered : other.IsOrdered) :
    answer.inOrder = other := by
  cases call with
  | list =>
    obtain ⟨entries, enumerates, rfl⟩ := tells
    obtain ⟨others, enumeratesOthers, rfl⟩ := tellsOther
    have perm := (enumerates.perm enumeratesOthers).map ListedObject.ofEntry
    show Answer.listing (.ok (ListedObject.inOrder _)) = _
    rw [ListedObject.inOrder_eq perm ordered]
  | head fingerprint =>
    have same : answer = other := Eq.trans tells (Eq.symm tellsOther)
    rw [same, ordered.inOrder_eq]
  | get fingerprint =>
    have same : answer = other := Eq.trans tells (Eq.symm tellsOther)
    rw [same, ordered.inOrder_eq]
  | delete fingerprint =>
    have same : answer = other := Eq.trans tells (Eq.symm tellsOther)
    rw [same, ordered.inOrder_eq]
  | put file =>
    have same : answer = other := by
      cases file <;> exact Eq.trans tells (Eq.symm tellsOther)
    rw [same, ordered.inOrder_eq]

end Call

/-! ## Calls on regular buckets -/

/-- A regular bucket tells the truth about its map, lists it in order, and stays
regular. -/
theorem perform_of_regular {bucket : Bucket} (regular : bucket.Regular) (call : Call) :
    call.Tells bucket.contents (perform call bucket).1 ∧ (perform call bucket).1.IsOrdered ∧
      (perform call bucket).2.Regular ∧
        (perform call bucket).2.contents = call.after bucket.contents := by
  cases call with
  | head fingerprint =>
    have performed : perform (.head fingerprint) bucket =
        (.presence (bucket.head fingerprint.text).1, (bucket.head fingerprint.text).2) := rfl
    rw [performed, regular.head]
    exact ⟨rfl, trivial, regular.noting _ _, rfl⟩
  | get fingerprint =>
    have performed : perform (.get fingerprint) bucket =
        (.content (bucket.get fingerprint.text).1.1 (bucket.get fingerprint.text).1.2,
          (bucket.get fingerprint.text).2) := rfl
    rw [performed, regular.get]
    exact ⟨rfl, trivial, regular.noting _ _, rfl⟩
  | put file =>
    cases file with
    | ok content =>
      have performed : perform (.put (.ok content)) bucket =
          (.stored (bucket.put content).1, (bucket.put content).2) := rfl
      rw [performed, Bucket.put_of_calm regular.calm]
      exact ⟨rfl, trivial, (regular.noting _ _).insert _ content, Bucket.contents_insert _ content⟩
    | error kind => exact ⟨rfl, trivial, regular, rfl⟩
  | delete fingerprint =>
    have performed : perform (.delete fingerprint) bucket =
        (.removal (bucket.delete fingerprint.text).1, (bucket.delete fingerprint.text).2) := rfl
    obtain ⟨outcome, regularAfter, contentsAfter⟩ := regular.delete fingerprint
    rw [performed, outcome]
    exact ⟨rfl, trivial, regularAfter, contentsAfter⟩
  | list =>
    have performed : perform .list bucket = (.listing bucket.list.1, bucket.list.2) := rfl
    obtain ⟨entries, enumerates, ascending, listed⟩ := regular.list
    rw [performed, listed]
    exact ⟨⟨entries, enumerates, rfl⟩, ascending, regular.noting _ _, rfl⟩

end ContentStore.Remote
