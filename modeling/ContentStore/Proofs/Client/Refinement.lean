import ContentStore.Proofs.Client.Addressing
import ContentStore.Proofs.Client.Serving
import ContentStore.Proofs.Remote
import ContentStore.Proofs.Text.Utf8

/-!
Contract: a client and a server that holds a map are a bucket.

Owns:
- `perform_of_served`, what a call on a link to such a server gives, and what it
  makes of the map;
- `refines_bucket`, by which any sequence of calls gives on such a link what it
  gives on a bucket in memory.

Does not own: servers that fail, redirect, or leave objects out of listings.
-/

namespace ContentStore

open Http (Header Request Response Server)
open Text.Decimal (Spells words64)

/-! ## Lengths -/

/-- The length of a content can be told in 64 bits. -/
def Contents.Countable (contents : Contents) : Prop :=
  ∀ fingerprint content, contents fingerprint = some content → content.length < words64

/-- What a call stores can be counted in 64 bits. -/
def Remote.Call.Countable : Remote.Call → Prop
  | .put (.ok content) => content.length < words64
  | _ => True

private theorem Remote.Call.countable_after {contents : Contents} {call : Remote.Call}
    (countable : contents.Countable) (storesCountable : call.Countable) :
    (call.after contents).Countable := by
  cases call with
  | put file =>
    cases file with
    | ok stored =>
      intro fingerprint content present
      by_cases same : fingerprint = Fingerprint.ofContent stored
      · rw [same, Remote.Call.after, Function.update_self] at present
        rw [← Option.some.inj present]
        exact storesCountable
      · rw [Remote.Call.after, Function.update_of_ne same] at present
        exact countable fingerprint content present
    | error kind => exact countable
  | delete deleted =>
    intro fingerprint content present
    by_cases same : fingerprint = deleted
    · rw [same, Remote.Call.after, Function.update_self] at present
      exact absurd present (by simp)
    · rw [Remote.Call.after, Function.update_of_ne same] at present
      exact countable fingerprint content present
  | head fingerprint => exact countable
  | get fingerprint => exact countable
  | list => exact countable

/-! ## Replies -/

namespace Link

variable {State : Type} [Server State] {response : Response} {length : String}
  {number status : Nat} {body : Bytes}

/-- The reply that a response becomes. -/
def replyOf (response : Response) (status : Nat) (body : Bytes) : Http.Reply :=
  ⟨status, response.headers.map Header.received, body, true⟩

private theorem toldLength_eq (told : response.told "content-length" = [length])
    (spells : Spells length.toList number) (small : number < words64) :
    toldLength (replyOf response status body) = .ok number := by
  have found : Header.value? "content-length" (response.headers.map Header.received) =
      some length := by
    show (response.told "content-length").head? = some length
    rw [told]
    rfl
  have numbered : Header.number? length = some number := by
    unfold Header.number?
    rw [Response.trim_of_spells spells, spells.read_eq small]
    rfl
  unfold toldLength replyOf
  simp only [found, numbered]

private theorem listed_eq {contents : Contents} (lists : response.Lists contents) :
    ∃ body entries, response.Arrives .get 200 body ∧ contents.Enumerates entries ∧
      listed (replyOf response 200 body) = .ok (entries.map ListedObject.ofEntry) := by
  obtain ⟨document, listing, entries, arrives, writes, _, enumerates, tells⟩ := lists
  refine ⟨_, entries, arrives, enumerates, ?_⟩
  show (Listing.ofDocument (Text.Utf8.textLossy (Text.Utf8.encode document))).map
    Listing.contents = _
  rw [Text.Utf8.textLossy_encode, Listing.ofDocument_eq writes, ← tells]
  rfl

/-! ## Calls -/

variable {view : State → Contents} {link : Link State} {key : String} {method : Method}
  {content : Option Bytes}

/-- A question to a server that responds is answered with its response, unless it
redirects. -/
theorem ask_of_responds (usable : link.client.Usable) (simple : Url.IsSimpleKey key)
    {Holds : Response → Prop} {contents : Contents}
    (responds : ∀ request, link.client.Asks request method key content →
      Http.Responds view request link.server Holds contents) :
    ∃ response after, Holds response ∧ view after = contents ∧
      ∀ status body, response.Arrives method status body → status ∉ Http.Call.redirections →
        link.ask method key content =
          (.ok (replyOf response status body), { link with server := after }) := by
  obtain ⟨request, asks, answered⟩ := exists_request usable simple method content
  obtain ⟨response, after, answer, holds, viewed⟩ := responds request asks
  refine ⟨response, after, holds, viewed, ?_⟩
  intro status body arrives settled
  exact answered response after status body answer arrives settled

/-- What a call leaves: the server holds this map, and the requests are made as
before. -/
structure Leaves (view : State → Contents) (link after : Link State) (contents : Contents) :
    Prop where
  client_eq : after.client = link.client
  view_eq : view after.server = contents

private theorem simple_fingerprint (fingerprint : Fingerprint) : Url.IsSimpleKey fingerprint.text :=
  Or.inr ⟨fingerprint, rfl⟩

private theorem head_of_served (usable : link.client.Usable) (served : link.client.ServedBy view)
    (countable : (view link.server).Countable) (fingerprint : Fingerprint) :
    (link.head fingerprint.text).1 = .ok ((view link.server).presence fingerprint) ∧
    link.Leaves view (link.head fingerprint.text).2 (view link.server) := by
  obtain ⟨response, after, tells, viewed, asked⟩ := ask_of_responds usable
    (simple_fingerprint fingerprint)
    fun request asks => served.head request link.server fingerprint asks
  unfold head Contents.presence
  cases present : view link.server fingerprint with
  | some content =>
    rw [present] at tells
    obtain ⟨arrives, length, told, spells⟩ := tells
    have small := countable fingerprint content present
    rw [asked 200 [] arrives (by decide)]
    refine ⟨?_, rfl, viewed⟩
    show (toldLength (replyOf response 200 [])).map Presence.present = _
    rw [toldLength_eq told spells small]
    rfl
  | none =>
    rw [present] at tells
    rw [asked 404 [] tells (by decide)]
    exact ⟨rfl, rfl, viewed⟩

private theorem get_of_served (usable : link.client.Usable) (served : link.client.ServedBy view)
    (fingerprint : Fingerprint) :
    (link.get fingerprint.text).1 = (view link.server).download fingerprint ∧
    link.Leaves view (link.get fingerprint.text).2 (view link.server) := by
  obtain ⟨response, after, delivers, viewed, asked⟩ := ask_of_responds usable
    (simple_fingerprint fingerprint)
    fun request asks => served.get request link.server fingerprint asks
  unfold get Contents.download
  cases present : view link.server fingerprint with
  | some content =>
    rw [present] at delivers
    rw [asked 200 content delivers (by decide)]
    exact ⟨rfl, rfl, viewed⟩
  | none =>
    rw [present] at delivers
    obtain ⟨body, arrives⟩ := delivers
    rw [asked 404 body arrives (by decide)]
    exact ⟨rfl, rfl, viewed⟩

private theorem put_of_served (usable : link.client.Usable) (served : link.client.ServedBy view)
    (content : Bytes) :
    (link.put content).1 = .ok (Fingerprint.ofContent content) ∧
    link.Leaves view (link.put content).2
      (Function.update (view link.server) (Fingerprint.ofContent content) (some content)) := by
  obtain ⟨response, after, ⟨body, arrives⟩, viewed, asked⟩ := ask_of_responds usable
    (simple_fingerprint (Fingerprint.ofContent content))
    fun request asks => served.put request link.server (Fingerprint.ofContent content) content asks
  have sent := asked 200 body arrives (by decide)
  unfold put
  simp only [sent]
  exact ⟨rfl, rfl, viewed⟩

private theorem delete_of_served (usable : link.client.Usable) (served : link.client.ServedBy view)
    (fingerprint : Fingerprint) :
    (link.delete fingerprint.text).1 = .ok ((view link.server).removal fingerprint) ∧
    link.Leaves view (link.delete fingerprint.text).2
      (Function.update (view link.server) fingerprint none) := by
  obtain ⟨response, after, removes, viewed, asked⟩ := ask_of_responds usable
    (simple_fingerprint fingerprint)
    fun request asks => served.delete request link.server fingerprint asks
  unfold delete Contents.removal
  cases present : view link.server fingerprint with
  | some content =>
    rw [present] at removes
    rw [asked 204 [] removes (by decide)]
    exact ⟨rfl, rfl, viewed⟩
  | none =>
    rw [present] at removes
    obtain ⟨body, arrives⟩ := removes
    rw [asked 404 body arrives (by decide)]
    exact ⟨rfl, rfl, viewed⟩

private theorem list_of_served (usable : link.client.Usable) (served : link.client.ServedBy view) :
    (∃ entries, (view link.server).Enumerates entries ∧
      link.list.1 = .ok (entries.map ListedObject.ofEntry)) ∧
    link.Leaves view link.list.2 (view link.server) := by
  obtain ⟨response, after, lists, viewed, asked⟩ := ask_of_responds usable (Or.inl rfl)
    fun request asks => served.list request link.server asks
  obtain ⟨body, entries, arrives, enumerates, read⟩ := listed_eq lists
  unfold list
  rw [asked 200 body arrives (by decide)]
  exact ⟨⟨entries, enumerates, read⟩, rfl, viewed⟩

/-- A call on a link to a server that holds a map tells the truth about the map,
and does to it what it should. -/
theorem perform_of_served (usable : link.client.Usable) (served : link.client.ServedBy view)
    (countable : (view link.server).Countable) (call : Remote.Call) :
    call.Tells (view link.server) (Remote.perform call link).1 ∧
      link.Leaves view (Remote.perform call link).2 (call.after (view link.server)) := by
  cases call with
  | head fingerprint =>
    obtain ⟨outcome, leaves⟩ := head_of_served usable served countable fingerprint
    exact ⟨congrArg Remote.Answer.presence outcome, leaves⟩
  | get fingerprint =>
    obtain ⟨outcome, leaves⟩ := get_of_served usable served fingerprint
    refine ⟨?_, leaves⟩
    show Remote.Answer.content (link.get fingerprint.text).1.1 (link.get fingerprint.text).1.2 = _
    rw [outcome]
  | put file =>
    cases file with
    | ok content =>
      obtain ⟨outcome, leaves⟩ := put_of_served usable served content
      exact ⟨congrArg Remote.Answer.stored outcome, leaves⟩
    | error kind => exact ⟨rfl, rfl, rfl⟩
  | delete fingerprint =>
    obtain ⟨outcome, leaves⟩ := delete_of_served usable served fingerprint
    exact ⟨congrArg Remote.Answer.removal outcome, leaves⟩
  | list =>
    obtain ⟨⟨entries, enumerates, outcome⟩, leaves⟩ := list_of_served usable served
    exact ⟨⟨entries, enumerates, congrArg Remote.Answer.listing outcome⟩, leaves⟩

/-! ## Sequences of calls -/

/-- Make calls one after the other, each at a time of its own. -/
def runAt : List (Calendar.Instant × Remote.Call) → Link State → List Remote.Answer × Link State
  | [], link => ([], link)
  | (now, call) :: rest, link =>
    let (answer, after) := Remote.perform call { link with clock := now }
    let (answers, final) := runAt rest after
    (answer :: answers, final)

variable {bucket : Bucket} {calls : List (Calendar.Instant × Remote.Call)}

/-- Whatever the calls, a link to a server that holds a map answers like a bucket
in memory with this map, up to the order of listings, and leaves the same map. -/
theorem runAt_of_served (usable : link.client.Usable) (served : link.client.ServedBy view)
    (countable : (view link.server).Countable) (storesCountable : ∀ call ∈ calls, call.2.Countable)
    (regular : bucket.Regular) (same : bucket.contents = view link.server) :
    (link.runAt calls).1.map Remote.Answer.inOrder =
        (Remote.run (calls.map Prod.snd) bucket).1 ∧
      (Remote.run (calls.map Prod.snd) bucket).2.contents = view (link.runAt calls).2.server := by
  -- Each call keeps what carries the induction: the bucket stays regular and holds
  -- the map of the server, and all that this holds can be counted.
  induction calls generalizing link bucket with
  | nil => exact ⟨rfl, same⟩
  | cons first rest inductionHypothesis =>
    obtain ⟨now, call⟩ := first
    let timed : Link State := { link with clock := now }
    obtain ⟨tells, clientAfter, viewAfter⟩ :=
      perform_of_served (show timed.client.Usable from usable) served countable call
    obtain ⟨bucketTells, ordered, regularAfter, contentsAfter⟩ :=
      Remote.perform_of_regular regular call
    rw [same] at bucketTells contentsAfter
    have sameAnswer := tells.inOrder_eq bucketTells ordered
    have countableAfter := Remote.Call.countable_after countable
      (storesCountable (now, call) List.mem_cons_self)
    rw [← viewAfter] at countableAfter
    obtain ⟨answers, sameFinal⟩ := inductionHypothesis
      (by rw [clientAfter]; exact usable) (by rw [clientAfter]; exact served) countableAfter
      (fun other member => storesCountable other (List.mem_cons_of_mem _ member)) regularAfter
      (contentsAfter.trans viewAfter.symm)
    refine ⟨?_, sameFinal⟩
    show Remote.Answer.inOrder (Remote.perform call timed).1 ::
      ((Remote.perform call timed).2.runAt rest).1.map Remote.Answer.inOrder = _
    rw [sameAnswer, answers]
    rfl

/-- Whatever a server holds, there is a bucket in memory that holds the same. -/
theorem exists_bucket_of_served (usable : link.client.Usable)
    (served : link.client.ServedBy view) (name : String) :
    ∃ bucket : Bucket, bucket.name = name ∧ bucket.Regular ∧
      bucket.contents = view link.server := by
  obtain ⟨⟨entries, enumerates, _⟩, _⟩ := list_of_served usable served
  exact enumerates.exists_bucket name

/-- A link to a server that holds a map refines a bucket in memory that holds the
same map: after any calls the answers are the same, but for the order of listings,
and so are the maps.  If the server lists in ascending order of keys, as buckets
in memory do, the answers are equal. -/
theorem refines_bucket (link : Link State) (view : State → Contents) (bucket : Bucket)
    (calls : List (Calendar.Instant × Remote.Call)) (usable : link.client.Usable)
    (served : link.client.ServedBy view) (regular : bucket.Regular)
    (same : bucket.contents = view link.server) (countable : (view link.server).Countable)
    (storesCountable : ∀ call ∈ calls, call.2.Countable) :
    (link.runAt calls).1.map Remote.Answer.inOrder =
        (Remote.run (calls.map Prod.snd) bucket).1 ∧
      ((∀ answer ∈ (link.runAt calls).1, answer.IsOrdered) →
        (link.runAt calls).1 = (Remote.run (calls.map Prod.snd) bucket).1) ∧
      (Remote.run (calls.map Prod.snd) bucket).2.contents = view (link.runAt calls).2.server := by
  obtain ⟨sameAnswers, sameAfter⟩ :=
    runAt_of_served usable served countable storesCountable regular same
  refine ⟨sameAnswers, ?_, sameAfter⟩
  intro ordered
  rw [← sameAnswers]
  have kept : ∀ answer ∈ (link.runAt calls).1, Remote.Answer.inOrder answer = id answer :=
    fun answer member => (ordered answer member).inOrder_eq
  rw [List.map_congr_left kept, List.map_id]

/-- A client whose address names a host can be used, if the address of the bucket is good
and not too long. -/
private theorem usable_of_root {client : Client} {scheme : Url.Scheme} {authority : List Char}
    (isBase : Url.BaseOf scheme authority client.base)
    (found : ((Url.ofText? (client.address "")).any fun root =>
      decide (root.text.length + 32 ≤ Url.lengthLimit)) = true)
    (secret : client.credentials.secret ≠ "")
    (accessKeyId : Http.Header.isValue client.credentials.accessKeyId = true)
    (host : client.host.all Http.Header.isValue = true) : client.Usable where
  base := ⟨scheme, authority, isBase⟩
  root := by
    obtain ⟨root, isRoot, short⟩ := (Option.any_eq_true _ _).mp found
    exact ⟨root, isRoot, of_decide_eq_true short⟩
  secret := secret
  accessKeyId := accessKeyId
  host := by
    intro name isHost
    rw [Option.mem_def.mp isHost] at host
    exact host

theorem usable_localClient : Client.localClient.Usable :=
  usable_of_root Client.baseOf_localClient (by decide +kernel) (by decide) (by decide)
    (by decide)

/-- A client of a bucket that has a host of its own. -/
def hostedClient : Client :=
  ⟨"bucket", ⟨"id", "secret"⟩, "http://bucket.demo.scality.com", none⟩

private theorem baseOf_hostedClient :
    Url.BaseOf .http "bucket.demo.scality.com".toList hostedClient.base where
  spelled := ⟨"http".toList, "//".toList, by decide, by decide, by decide⟩
  some_host := by decide
  inside := by decide

private theorem usable_hostedClient : hostedClient.Usable :=
  usable_of_root baseOf_hostedClient (by decide +kernel) (by decide) (by decide) (by decide)

def oneName : Fingerprint :=
  ⟨"d41d8cd98f00b204e9800998ecf8427e", by decide⟩

def oneObject : Bucket :=
  (Bucket.empty "bucket").insert oneName.text (Bucket.shelved oneName [7])

private theorem regular_oneObject : oneObject.Regular :=
  (Bucket.regular_empty "bucket").insert oneName [7]

def toOneObject : Link Host :=
  ⟨hostedClient, ⟨0, 0⟩, ⟨oneObject, regular_oneObject⟩⟩

def someCalls : List (Calendar.Instant × Remote.Call) :=
  [(⟨0, 0⟩, .head oneName), (⟨1, 0⟩, .get oneName), (⟨2, 0⟩, .list), (⟨3, 0⟩, .delete oneName),
    (⟨4, 0⟩, .head oneName), (⟨5, 0⟩, .put (.ok [1]))]

private theorem countable_oneObject : (Host.view toOneObject.server).Countable := by
  intro fingerprint content present
  have member := regular_oneObject.contents_eq_some_iff.mp present
  obtain ⟨_, sameObject⟩ := Prod.mk.inj (List.mem_singleton.mp member)
  rw [(StoredObject.mk.inj sameObject).1]
  decide

/-- An object is found, fetched, listed and deleted, and another one is stored. -/
theorem one_object_is_served :
    (toOneObject.runAt someCalls).1.map Remote.Answer.inOrder =
      [.presence (.ok (.present 1)), .content (.ok 1) [7],
        .listing (.ok [ListedObject.ofEntry (oneName, [7])]), .removal (.ok .deleted),
        .presence (.ok .absent), .stored (.ok (Fingerprint.ofContent [1]))] := by
  have storesCountable : ∀ call ∈ someCalls, call.2.Countable := by
    intro call member
    simp only [someCalls, List.mem_cons, List.not_mem_nil, or_false] at member
    have small : [1].length < words64 := by decide
    rcases member with rfl | rfl | rfl | rfl | rfl | rfl <;> first | exact small | trivial
  have refined := refines_bucket toOneObject Host.view oneObject someCalls usable_hostedClient
    (Client.servedBy_host _) regular_oneObject rfl countable_oneObject storesCountable
  exact refined.1.trans rfl

end Link

end ContentStore
