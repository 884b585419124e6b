import ContentStore.Http.Script
import ContentStore.Proofs.Client.Headers
import ContentStore.Proofs.Http.Body
import ContentStore.Proofs.Url.PlainKey

/-!
Contract: what becomes of the requests of a client.

Owns:
- `Client.Usable`, by which the requests of a client can be sent;
- `Client.Asks`, what a server can see in a request;
- `Link.exists_request`, by which a question on a link is one request, and its
  reply the answer of the server, unless this redirects;
- the same for prepared answers.

Does not own: what the answers mean.
-/

namespace ContentStore

/-! ## Addresses of fingerprints and of the bucket -/

namespace Url

/-- The key of a fingerprint, or that of the bucket itself. -/
def IsSimpleKey (key : String) : Prop :=
  key = "" ∨ ∃ fingerprint : Fingerprint, key = fingerprint.text

variable {key : String} {scheme : Scheme} {authority : List Char} {base : String} {root : Url}

private theorem plainKey_empty : PlainKey "" where
  lasting := fun symbol member => absurd member (by simp)
  ended := fun symbol last => absurd last (by simp)
  unspelled := rfl
  pointless := by decide

private theorem IsSimpleKey.plain (simple : IsSimpleKey key) : PlainKey key := by
  rcases simple with rfl | ⟨fingerprint, rfl⟩
  · exact plainKey_empty
  · exact plainKey_fingerprint fingerprint

private theorem IsSimpleKey.pathOf_eq (simple : IsSimpleKey key) :
    pathOf ('/' :: key.toList) = '/' :: key.toList := by
  rcases simple with rfl | ⟨fingerprint, rfl⟩
  · decide
  · exact pathOf_fingerprint fingerprint

private theorem IsSimpleKey.length_le (simple : IsSimpleKey key) : key.length ≤ 32 := by
  rcases simple with rfl | ⟨fingerprint, rfl⟩
  · decide
  · rw [← String.length_toList]
    exact Nat.le_of_eq fingerprint.wellFormed.1

private theorem IsSimpleKey.target_eq (simple : IsSimpleKey key) (scheme : Scheme)
    (origin : Option (String × String) × Host × Option Nat) :
    (ofOrigin scheme origin (readable key)).target = "/" ++ key := by
  rw [target_ofOrigin scheme origin simple.plain, simple.pathOf_eq]
  apply String.toList_inj.mp
  rw [String.toList_ofList, String.toList_append]
  rfl

/-- If the address of a bucket is good and not too long, so are those of the
fingerprints in it. -/
theorem exists_url_of_root (isBase : BaseOf scheme authority base)
    (isRoot : ofText? (base ++ "/" ++ "") = some root)
    (short : root.text.length + 32 ≤ lengthLimit) (simple : IsSimpleKey key) :
    ∃ url, ofText? (base ++ "/" ++ key) = some url ∧ url.target = "/" ++ key := by
  have rootSimple : IsSimpleKey "" := Or.inl rfl
  rw [ofText?_of_base isBase] at isRoot
  obtain ⟨origin, isOrigin, made⟩ := Option.bind_eq_some_iff.mp isRoot
  have sameRoot : root = ofOrigin scheme origin (readable "") := by
    split at made
    · exact absurd made (by simp)
    · exact (Option.some.inj made).symm
  have fits : ¬ lengthLimit < (ofOrigin scheme origin (readable key)).text.length := by
    have sameScheme : (ofOrigin scheme origin (readable key)).scheme = root.scheme := by
      rw [sameRoot]
      unfold ofOrigin
      rfl
    have sameAuthority : (ofOrigin scheme origin (readable key)).authority = root.authority := by
      rw [sameRoot]
      unfold ofOrigin Url.authority
      rfl
    have keyLength := simple.length_le
    have rootTarget : root.target = "/" ++ "" := by
      rw [sameRoot]
      exact rootSimple.target_eq scheme origin
    unfold text at short ⊢
    rw [rootTarget] at short
    rw [sameScheme, sameAuthority, simple.target_eq]
    simp only [String.length_append] at short ⊢
    have emptyLength : "".length = 0 := rfl
    omega
  refine ⟨ofOrigin scheme origin (readable key), ?_, simple.target_eq scheme origin⟩
  rw [ofText?_of_base isBase, isOrigin, Option.bind_some, if_neg fits]

end Url

/-! ## Calls -/

namespace Http.Call

variable {State : Type} [Server State] {call : Call} {server after : State}
  {response : Response} {status : Nat} {body : Bytes}

/-- A call with an answer that does not redirect is over after one request. -/
theorem send_eq (sendable : call.isSendable = true)
    (answered : Server.answer call.request server = (some response, after))
    (arrives : response.Arrives call.method status body) (settled : status ∉ redirections) :
    call.send server =
      (some ⟨status, response.headers.map Header.received, body, true⟩, after) := by
  have exchanged : call.exchange server =
      (some ⟨status, response.headers.map Header.received, body, true⟩, after) := by
    unfold exchange
    rw [if_pos sendable, answered]
    simp only [Option.bind_some, arrives.reply?_eq]
  have isFinal : call.outcome ⟨status, response.headers.map Header.received, body, true⟩ =
      .final := by
    unfold outcome
    rw [if_neg]
    rintro ⟨redirects, _⟩
    exact settled (List.contains_iff_mem.mp redirects)
  unfold send
  rw [sendWithin, exchanged]
  simp only [isFinal]

end Http.Call

/-! ## Questions on a link -/

open Http (Header Server Response)

namespace Client

/-- The address of the bucket names a host, and the requests can be signed. -/
structure Usable (client : Client) : Prop where
  base : ∃ scheme authority, Url.BaseOf scheme authority client.base
  root : ∃ root, Url.ofText? (client.address "") = some root ∧
    root.text.length + 32 ≤ Url.lengthLimit
  secret : client.credentials.secret ≠ ""
  accessKeyId : Header.isValue client.credentials.accessKeyId = true
  host : ∀ name ∈ client.host, Header.isValue name = true

/-- A request in which a client asks for something under a key. -/
structure Asks (client : Client) (request : Http.Request) (method : Method) (key : String)
    (content : Option Bytes) : Prop where
  method_eq : request.method = method
  target_eq : request.target = "/" ++ key
  content_eq : request.content = content
  /-- The signature is one for the method, the bucket and the key. -/
  signed : ∃ now signed,
    client.credentials.sign (SignedParts.plain method client.bucket key) now = .ok signed ∧
      ∀ header ∈ signature signed, header ∈ request.headers
  hosted : ∀ name ∈ client.host, ⟨"host", name⟩ ∈ request.headers

end Client

namespace Link

variable {State : Type} [Server State] {link : Link State} {key : String}

/-- A question on a link is one request, and if the server answers it and does
not redirect, the answer is the reply. -/
theorem exists_request (usable : link.client.Usable) (simple : Url.IsSimpleKey key)
    (method : Method) (content : Option Bytes) :
    ∃ request, link.client.Asks request method key content ∧
      ∀ response after status body,
        Server.answer request link.server = (some response, after) →
          response.Arrives method status body → status ∉ Http.Call.redirections →
            link.ask method key content =
              (.ok ⟨status, Response.headers response |>.map Header.received, body, true⟩,
                { link with server := after }) := by
  obtain ⟨scheme, authority, isBase⟩ := usable.base
  obtain ⟨root, isRoot, short⟩ := usable.root
  obtain ⟨url, found, target⟩ := Url.exists_url_of_root isBase isRoot short simple
  have able : link.client.CanSend key :=
    ⟨usable.secret, usable.accessKeyId, usable.host, url, found⟩
  obtain ⟨signed, signing, called, sendable⟩ := able.exists_call found link.clock method content
  refine ⟨(Http.Call.toAddress method url link.client.host (Client.signature signed)
    content).request, ?_, ?_⟩
  · refine ⟨rfl, target, rfl, ⟨link.clock, signed, signing, ?_⟩, ?_⟩
    · intro header member
      apply List.mem_cons_of_mem
      apply List.mem_cons_of_mem
      apply List.mem_append_left
      exact List.mem_append_right _ member
    · intro name isHost
      have named : link.client.host = some name := isHost
      unfold Http.Call.request Http.Call.toAddress
      rw [named]
      exact List.mem_cons_of_mem _ List.mem_cons_self
  · intro response after status body answered arrives settled
    have sent := Http.Call.send_eq sendable answered arrives settled
    unfold ask
    rw [called]
    simp only [sent]

/-- A prepared answer that does not redirect is the reply, to one request. -/
theorem exists_ask_of_script {link : Link Http.Script} {response : Response}
    {rest : List (Option Response)} (usable : link.client.Usable) (simple : Url.IsSimpleKey key)
    (method : Method) (content : Option Bytes)
    (reached : ∀ request, link.server.isReached request = true)
    (prepared : link.server.responses = some response :: rest) {status : Nat} {body : Bytes}
    (arrives : (Http.Script.respond method response).Arrives method status body)
    (settled : status ∉ Http.Call.redirections) :
    ∃ request headers, request.method = method ∧ request.target = "/" ++ key ∧
      link.ask method key content = (.ok ⟨status, headers, body, true⟩,
        { link with
          server := ⟨rest, link.server.requests ++ [request], link.server.isReached⟩ }) := by
  obtain ⟨request, asks, answered⟩ := exists_request usable simple method content
  have answer : Server.answer request link.server =
      (some (Http.Script.respond method response),
        ⟨rest, link.server.requests ++ [request], link.server.isReached⟩) := by
    show Http.Script.answer request link.server = _
    unfold Http.Script.answer Http.Script.later
    rw [if_pos (reached request), prepared, asks.method_eq]
    rfl
  exact ⟨request, _, asks.method_eq, asks.target_eq,
    answered _ _ status body answer arrives settled⟩

end Link

end ContentStore
