import ContentStore.Http.Script
import ContentStore.Proofs.Client.Methods
import ContentStore.Proofs.Signing
import ContentStore.Proofs.Store.Calls

/-!
Contract: requests that a receiver can verify.

Owns:
- `Http.Call.LeadsTo`, the requests that redirections of a call lead to, and that a call
  is one request of its own and then only such ones;
- `Client.recomputed`, the authorization that a receiver who knows the secret computes
  from what a request shows;
- `Client.Signed`, by which a request carries that authorization, and that every request
  of a client does, in every operation and in every run of a store or a collector;
- that a login in the address comes before it as an authorization of its own, which is
  never the recomputed one.

Does not own: what receivers make of a request with two authorizations.
-/

namespace ContentStore

open Http (Header Noted)

/-! ## Calls and the requests that follow them -/

namespace Http

namespace Call

/-- Whether answers that redirect lead from a call to a request. -/
inductive LeadsTo : Call → Request → Prop where
  | once {call next : Call} {reply : Reply} (redirected : call.outcome reply = .next next) :
      LeadsTo call next.request
  | onwards {call next : Call} {reply : Reply} {request : Request}
      (redirected : call.outcome reply = .next next) (later : LeadsTo next request) :
      LeadsTo call request

variable {State : Type} [Server State] {call : Call}

/-- All that a call sends after its first exchange is what redirections lead to. -/
theorem sent_after_exchange (fuel : Nat) (call : Call) (noted : Noted State) :
    Noted.Sent call.LeadsTo (call.exchange noted).2 (call.sendWithin fuel noted).2 := by
  induction fuel using Nat.strongRecOn generalizing call noted with
  | ind fuel inductionHypothesis =>
    rcases sendWithin_cases fuel call noted with final | ⟨reply, next, less, redirected, rfl, on⟩
    · rw [final]
      exact Noted.Sent.refl _
    · rw [on]
      have first : Noted.Sent call.LeadsTo (call.exchange noted).2
          (next.exchange (call.exchange noted).2).2 := by
        apply (sent_exchange next _).mono
        intro request same
        rw [same]
        exact .once redirected
      have others := inductionHypothesis less (Nat.lt_succ_self less) next (call.exchange noted).2
      exact first.trans (others.mono fun request later => .onwards redirected later)

/-- A call that can be sent is one request of its own, and then only such as
redirections lead to. -/
theorem exists_followUps (sendable : call.isSendable = true) (fuel : Nat) (noted : Noted State) :
    ∃ followUps, (call.sendWithin fuel noted).2.requests =
        noted.requests ++ call.request :: followUps ∧
      ∀ request ∈ followUps, call.LeadsTo request := by
  obtain ⟨followUps, grown, later⟩ := sent_after_exchange fuel call noted
  refine ⟨followUps, ?_, later⟩
  have once : (call.exchange noted).2.requests = noted.requests ++ [call.request] := by
    unfold exchange
    rw [if_pos sendable]
    rfl
  rw [grown, once, List.append_assoc]
  rfl

end Call

end Http

/-! ## Signed requests -/

namespace Client

/-- The authorization that a receiver who knows the secret of a client computes for a
request under a key: it reads the date from its header, and takes the method as it is. -/
def recomputed (client : Client) (key : String) (request : Http.Request) : Option String := do
  let date ← Header.value? "x-amz-date" request.headers
  let instant ← (Calendar.Instant.parseWire date).toOption
  (Signing.authorization ((SignedParts.plain request.method client.bucket key).stringToSign instant)
    client.credentials.accessKeyId client.credentials.secret).toOption

/-- A request of a client under a key goes to the address of the key and carries one date
and the authorization that is recomputed from it.  Where the address has a login, that is
an authorization as well, and comes first. -/
structure Signed (client : Client) (method : Method) (key : String) (request : Http.Request) :
    Prop where
  method_eq : request.method = method
  verified : ∃ url date authorization,
    Url.ofText? (client.address key) = some url ∧ request.target = url.target ∧
      Header.values "x-amz-date" request.headers = [date] ∧
      client.recomputed key request = some authorization ∧
      Header.values "authorization" request.headers =
        (url.login.map fun login => (Http.Call.loginHeader login).value).toList ++ [authorization]

variable {client : Client} {now : Calendar.Instant} {method : Method} {key : String}
  {content : Option Bytes} {call : Http.Call}

private theorem authorized_of_sign {credentials : Credentials} {parts : SignedParts}
    {signed : SignedHeaders} (signing : credentials.sign parts now = .ok signed) :
    Signing.authorization (parts.stringToSign now) credentials.accessKeyId credentials.secret =
      .ok signed.authorization ∧ signed.date = now.wire := by
  unfold Credentials.sign at signing
  cases authorized : Signing.authorization (parts.stringToSign now) credentials.accessKeyId
      credentials.secret with
  | error cause =>
    rw [authorized] at signing
    exact absurd signing (by simp [Except.map])
  | ok authorization =>
    rw [authorized] at signing
    rw [← Except.ok.inj signing]
    exact ⟨rfl, rfl⟩

/-- The headers that a signed call shows to a receiver. -/
theorem values_of_toAddress (method : Method) (url : Url) (host : Option String)
    (signed : SignedHeaders) (content : Option Bytes) :
    let request := (Http.Call.toAddress method url host (signature signed) content).request
    Header.values "x-amz-date" request.headers = [signed.date] ∧
      Header.values "authorization" request.headers =
        (url.login.map fun login => (Http.Call.loginHeader login).value).toList ++
          [signed.authorization] := by
  cases login : url.login <;> cases content <;>
    simp [Http.Call.request, Http.Call.toAddress, login, signature, Header.values,
      Http.Call.loginHeader, Http.Call.lengthHeader]

/-- What a client makes a call of is verified by whoever receives it: the date shows a
second of the clock at which it was signed, and nothing else of the clock is covered. -/
theorem signed_of_call (made : client.call now method key content = .ok call)
    (representable : now.Representable) : client.Signed method key call.request := by
  obtain ⟨signed, url, signing, found, rfl⟩ := call_ok made
  obtain ⟨authorized, dated⟩ := authorized_of_sign signing
  obtain ⟨dates, authorizations⟩ :=
    values_of_toAddress method url client.host signed content
  refine ⟨rfl, url, signed.date, signed.authorization, found, rfl, dates, ?_,
    authorizations⟩
  have dateShown : Header.value? "x-amz-date" (Http.Call.toAddress method url client.host
      (signature signed) content).request.headers = some now.wire := by
    unfold Header.value?
    rw [dates, dated]
    rfl
  have dateRead : (Calendar.Instant.parseWire now.wire).toOption = some now.shown := by
    rw [Calendar.Instant.parseWire_wire representable]
    rfl
  unfold recomputed
  rw [dateShown, Option.bind_eq_bind, Option.bind_some, dateRead, Option.bind_eq_bind,
    Option.bind_some, SignedParts.stringToSign_shown _ representable]
  exact congrArg Except.toOption authorized

/-- The recomputed authorization is the only one exactly if the address has no login. -/
theorem Signed.alone_iff {request : Http.Request} (signed : client.Signed method key request) :
    (∃ authorization, client.recomputed key request = some authorization ∧
      Header.values "authorization" request.headers = [authorization]) ↔
    ∃ url, Url.ofText? (client.address key) = some url ∧ url.login = none := by
  obtain ⟨url, _, authorization, found, _, _, computed, shown⟩ := signed.verified
  constructor
  · rintro ⟨other, _, alone⟩
    refine ⟨url, found, ?_⟩
    rw [shown] at alone
    cases login : url.login with
    | none => rfl
    | some login =>
      rw [login] at alone
      exact absurd (List.cons.inj alone).2 (List.cons_ne_nil _ _)
  · rintro ⟨other, foundAgain, noLogin⟩
    rw [found] at foundAgain
    rw [← Option.some.inj foundAgain] at noLogin
    refine ⟨authorization, computed, ?_⟩
    rw [shown, noLogin]
    rfl

/-- The recomputed authorization is never that of a login: they begin differently. -/
theorem recomputed_ne_login {request : Http.Request} {authorization : String}
    (computed : client.recomputed key request = some authorization) (login : String × String) :
    authorization ≠ (Http.Call.loginHeader login).value := by
  unfold recomputed at computed
  obtain ⟨date, _, computed⟩ := Option.bind_eq_some_iff.mp computed
  obtain ⟨instant, _, computed⟩ := Option.bind_eq_some_iff.mp computed
  unfold Signing.authorization at computed
  cases signed : Signing.signature ((SignedParts.plain request.method client.bucket key).stringToSign
      instant) client.credentials.secret with
  | error cause =>
    rw [signed] at computed
    exact absurd computed (by simp [Except.map, Except.toOption])
  | ok signature =>
    rw [signed] at computed
    rw [← Option.some.inj computed]
    intro same
    have begun := congrArg (fun text : String => text.toList.head?) same
    simp [Http.Call.loginHeader] at begun

/-- What a client sends to ask for something under a key: a request that it builds, which
is signed, and then such as redirections lead to. -/
def Sends (client : Client) (method : Method) (key : String) (request : Http.Request) : Prop :=
  ∃ now content call, client.call now method key content = .ok call ∧
    (request = call.request ∧ client.Signed method key request ∨ call.LeadsTo request)

end Client

/-! ## Operations of a link -/

namespace Link

variable {State : Type} [Http.Server State]

/-- What a client is used for. -/
inductive Operation where
  | head (key : String)
  | contentLength (key : String)
  | get (key : String)
  | put (content : Bytes)
  | delete (key : String)
  | list
  | bucketExists
  | createBucket

/-- What an operation asks for at most: under which key, and with which method. -/
def Operation.asks : Operation → List (Method × String)
  | .head key => [(.head, key)]
  | .contentLength key => [(.head, key)]
  | .get key => [(.get, key)]
  | .put content => [(.put, (Fingerprint.ofContent content).text)]
  | .delete key => [(.delete, key)]
  | .list => [(.get, "")]
  | .bucketExists => [(.get, "")]
  | .createBucket => [(.get, ""), (.put, "")]

/-- The link after an operation. -/
def after (link : Link State) : Operation → Link State
  | .head key => (link.head key).2
  | .contentLength key => (link.contentLength key).2
  | .get key => (link.get key).2
  | .put content => (link.put content).2
  | .delete key => (link.delete key).2
  | .list => link.list.2
  | .bucketExists => link.bucketExists.2
  | .createBucket => link.createBucket.2

private theorem after_get (link : Link State) (key : String) :
    (link.get key).2 = (link.ask .get key none).2 := by
  unfold get
  split <;> rename_i asked <;> rw [asked]

/-- An operation is one question, or two, all of which it may ask. -/
theorem after_cases (link : Link State) (operation : Operation) :
    ∃ first ∈ operation.asks, ∃ content,
      link.after operation = (link.ask first.1 first.2 content).2 ∨
      ∃ second ∈ operation.asks, link.after operation =
        ((link.ask first.1 first.2 content).2.ask second.1 second.2 none).2 := by
  cases operation with
  | createBucket =>
    refine ⟨(.get, ""), List.mem_cons_self, none, ?_⟩
    rcases createBucket_cases link with looked | made
    · exact Or.inl looked
    · exact Or.inr ⟨(.put, ""), List.mem_cons_of_mem _ List.mem_cons_self, made⟩
  | get key => exact ⟨_, List.mem_cons_self, none, Or.inl (after_get link key)⟩
  | put content => exact ⟨_, List.mem_cons_self, some content, Or.inl rfl⟩
  | _ => exact ⟨_, List.mem_cons_self, none, Or.inl rfl⟩

/-! ### What is sent -/

private theorem sent_signed_ask (link : Link (Noted State))
    (representable : link.clock.Representable)
    (method : Method) (key : String) (content : Option Bytes) :
    Noted.Sent (link.client.Sends method key) link.server
      (link.ask method key content).2.server := by
  unfold ask
  split
  · exact Noted.Sent.refl _
  · rename_i call made
    have once : Noted.Sent (link.client.Sends method key) link.server
        (call.exchange link.server).2 := by
      apply (Http.Call.sent_exchange call link.server).mono
      intro request same
      have signed := Client.signed_of_call made representable
      exact ⟨link.clock, content, call, made, Or.inl ⟨same, same ▸ signed⟩⟩
    apply once.trans
    apply (Http.Call.sent_after_exchange Http.Call.redirectionLimit call link.server).mono
    exact fun request later => ⟨link.clock, content, call, made, Or.inr later⟩

/-- Where nothing keeps a client from it, a question is the request that it builds, and
then only such as redirections lead to. -/
theorem exists_signed_ask (link : Link (Noted State)) {key : String}
    (able : link.client.CanSend key) (method : Method) (content : Option Bytes) :
    ∃ call followUps, link.client.call link.clock method key content = .ok call ∧
      (link.ask method key content).2.server.requests =
        link.server.requests ++ call.request :: followUps ∧
      ∀ later ∈ followUps, call.LeadsTo later := by
  obtain ⟨url, found⟩ := able.address
  obtain ⟨signed, _, made, sendable⟩ := able.exists_call found link.clock method content
  obtain ⟨followUps, grown, later⟩ :=
    Http.Call.exists_followUps sendable Http.Call.redirectionLimit link.server
  refine ⟨_, followUps, made, ?_, later⟩
  unfold ask
  rw [made]
  exact grown

/-- An operation sends what the client sends to ask its questions. -/
theorem sent_signed (link : Link (Noted State)) (representable : link.clock.Representable)
    (operation : Operation) :
    Noted.Sent (fun request => ∃ asked ∈ operation.asks,
        link.client.Sends asked.1 asked.2 request)
      link.server (link.after operation).server := by
  obtain ⟨first, isFirst, content, cases⟩ := after_cases link operation
  have looked : Noted.Sent (fun request => ∃ asked ∈ operation.asks,
      link.client.Sends asked.1 asked.2 request) link.server
        (link.ask first.1 first.2 content).2.server := by
    apply (sent_signed_ask link representable first.1 first.2 content).mono
    exact fun request sent => ⟨first, isFirst, sent⟩
  rcases cases with once | ⟨second, isSecond, twice⟩
  · rw [once]
    exact looked
  · rw [twice]
    obtain ⟨sameClient, sameClock⟩ := link.ask_keeps first.1 first.2 content
    have again := sent_signed_ask (link.ask first.1 first.2 content).2
      (sameClock ▸ representable) second.1 second.2 none
    rw [sameClient] at again
    apply looked.trans
    apply again.mono
    exact fun request sent => ⟨second, isSecond, sent⟩

/-! ## Runs -/

/-- A link of a client at a representable time, all of whose requests since some moment
are signed or follow redirections. -/
structure SignedSince (client : Client) (start : Noted State) (link : Link (Noted State)) :
    Prop where
  client_eq : link.client = client
  representable : link.clock.Representable
  sent : Noted.Sent (fun request => ∃ method key, client.Sends method key request) start
    link.server

namespace SignedSince

variable {client : Client} {start : Noted State} {link : Link (Noted State)}

omit [Http.Server State] in
private theorem refl (representable : link.clock.Representable) :
    SignedSince link.client link.server link :=
  ⟨rfl, representable, Noted.Sent.refl _⟩

private theorem ask (signed : SignedSince client start link) (method : Method) (key : String)
    (content : Option Bytes) : SignedSince client start (link.ask method key content).2 := by
  obtain ⟨sameClient, sameClock⟩ := link.ask_keeps method key content
  have sent := sent_signed_ask link signed.representable method key content
  rw [signed.client_eq] at sent
  refine ⟨sameClient.trans signed.client_eq, sameClock ▸ signed.representable, ?_⟩
  apply signed.sent.trans
  apply sent.mono
  exact fun request sends => ⟨method, key, sends⟩

theorem keptByCalls (client : Client) (start : Noted State) :
    Store.KeptByCalls (SignedSince client start) where
  head key _ signed := signed.ask .head key none
  get key connection signed := by
    have after : (Remote.get key connection).2 = (connection.ask .get key none).2 :=
      after_get connection key
    rw [after]
    exact signed.ask .get key none
  put content _ signed := signed.ask .put _ (some content)
  list _ signed := signed.ask .get "" none

private theorem sweep (signed : SignedSince client start link) (marked : List Fingerprint)
    (delete : Bool) : SignedSince client start (Collector.sweep marked delete link).2 := by
  apply Collector.sweep_preserves (SignedSince client start)
  · exact (keptByCalls client start).list link signed
  · intro objects _ _ object _ _ used signedUsed
    exact signedUsed.ask .delete object.key none

end SignedSince

end Link

section Runs

variable {State : Type} [Http.Server State] {client : Client} {start : Noted State}

open Link (SignedSince)

private theorem Collector.Session.signedSince_perform
    {session : Collector.Session (Link (Noted State))}
    (signed : SignedSince client start session.connection) (call : Collector.Call) :
    SignedSince client start (session.perform call).connection := by
  cases call with
  | start =>
    simp only [perform]
    split <;> exact signed
  | mark fingerprint =>
    simp only [perform]
    split <;> exact signed
  | stop delete elapsed meanwhile =>
    by_cases marking : session.collector.phase = .marking
    · rw [perform_stop_of_marking marking]
      exact signed.sweep session.collector.marked delete
    · rw [perform_stop_of_refused marking]
      exact signed

private theorem Collector.Session.signedSince_performAll
    {session : Collector.Session (Link (Noted State))}
    (signed : SignedSince client start session.connection) (calls : List Collector.Call) :
    SignedSince client start (session.performAll calls).connection := by
  induction calls generalizing session with
  | nil => exact signed
  | cons call rest inductionHypothesis =>
    exact inductionHypothesis (signedSince_perform signed call)

/-- Whether a step leaves it to the client to send requests: others let time pass, and do
with the server what they like. -/
def Store.Step.SendsNothing : Store.Step (Link (Noted State)) → Prop
  | .elsewhere change => ∀ link, (change link).client = link.client ∧
      (link.clock.Representable → (change link).clock.Representable) ∧
      (change link).server.requests = link.server.requests
  | _ => True

private theorem Store.Usage.signedSince_step {usage : Store.Usage (Link (Noted State))}
    (signed : SignedSince client start usage.store.connection)
    {taken : Store.Step (Link (Noted State))} (quiet : taken.SendsNothing) :
    SignedSince client start (usage.step taken).store.connection := by
  cases taken with
  | act operation =>
    apply (SignedSince.keptByCalls client start).perform operation _ _ signed
    · intro fingerprint _
      exact signed.ask .delete fingerprint.text none
    · intro delete elapsed _
      have current : SignedSince client start usage.session.connection := signed
      exact Collector.Session.signedSince_perform current _
  | surround locked medium => exact signed
  | elsewhere change =>
    obtain ⟨sameClient, later, sameRequests⟩ := quiet usage.store.connection
    obtain ⟨requests, grown, lawful⟩ := signed.sent
    exact ⟨sameClient.trans signed.client_eq, later signed.representable, requests,
      sameRequests.trans grown, lawful⟩
  | alter folder => exact signed
  | putWhile meanwhile reader =>
    simp only [Store.Usage.step, Store.Usage.take_connection]
    exact (SignedSince.keptByCalls client start).putWhile meanwhile reader signed

private theorem Store.Usage.signedSince_run {usage : Store.Usage (Link (Noted State))}
    (signed : SignedSince client start usage.store.connection)
    (steps : List (Store.Step (Link (Noted State))))
    (quiet : ∀ taken ∈ steps, taken.SendsNothing) :
    SignedSince client start (Store.Usage.run steps usage).store.connection := by
  induction steps generalizing usage with
  | nil => exact signed
  | cons taken rest inductionHypothesis =>
    have now := signedSince_step signed (quiet taken List.mem_cons_self)
    exact inductionHypothesis now fun later member => quiet later (List.mem_cons_of_mem _ member)

/-- To open a store is to send what the client of its settings signs. -/
theorem Store.sent_signed_connect {link : Link (Noted State)}
    (representable : link.clock.Representable) (repository : String) {settings : Settings}
    (sameClient : Client.ofSettings settings = link.client) :
    Noted.Sent (fun request => ∃ method key, link.client.Sends method key request) link.server
      (Store.connect repository settings link.clock link.server).2 := by
  have opened : Store.linkTo settings link.clock link.server = link := by
    unfold linkTo
    rw [sameClient]
  unfold connect
  split
  · exact Noted.Sent.refl _
  · exact Noted.Sent.refl _
  · rw [opened]
    apply (link.sent_signed representable .createBucket).mono
    rintro request ⟨asked, _, sends⟩
    exact ⟨asked.1, asked.2, sends⟩

/-! ### Receivers -/

/-- Every request that a client builds is verified by a receiver who knows the secret,
whatever the time, the operation and the key are: its date can be read, and the
authorization recomputed from that date, from the method, the bucket and the key is the
one that the request carries, and the only one unless the address has a login.  Such
requests, and what redirections make of them, are all that is sent: by the single
operations, where a request is sent indeed if nothing keeps the client from it, by every
run of a store, by every sequence of calls on a collector, and to open a store. -/
theorem Link.signatures_verify_at_the_receiver (link : Link (Noted State))
    (representable : link.clock.Representable) :
    (∀ now : Calendar.Instant, now.Representable → ∀ method key content call,
      link.client.call now method key content = .ok call →
        link.client.Signed method key call.request) ∧
    (∀ operation, Noted.Sent (fun request => ∃ asked ∈ Operation.asks operation,
      link.client.Sends asked.1 asked.2 request) link.server (link.after operation).server) ∧
    (∀ method key content, link.client.CanSend key →
      ∃ call followUps, link.client.call link.clock method key content = .ok call ∧
        (link.ask method key content).2.server.requests =
          link.server.requests ++ call.request :: followUps ∧
        ∀ later ∈ followUps, call.LeadsTo later) ∧
    (∀ method key request, link.client.Signed method key request →
      ((∃ authorization, link.client.recomputed key request = some authorization ∧
          Header.values "authorization" request.headers = [authorization]) ↔
        ∃ url, Url.ofText? (link.client.address key) = some url ∧ url.login = none)) ∧
    (∀ usage : Store.Usage (Link (Noted State)), usage.store.connection = link →
      ∀ steps, (∀ taken ∈ steps, taken.SendsNothing) →
        Noted.Sent (fun request => ∃ method key, link.client.Sends method key request)
          link.server (Store.Usage.run steps usage).store.connection.server) ∧
    (∀ session : Collector.Session (Link (Noted State)), session.connection = link →
      ∀ calls, Noted.Sent (fun request => ∃ method key, link.client.Sends method key request)
        link.server (session.performAll calls).connection.server) ∧
    (∀ repository settings, Client.ofSettings settings = link.client →
      Noted.Sent (fun request => ∃ method key, link.client.Sends method key request)
        link.server (Store.connect repository settings link.clock link.server).2) := by
  have signed := SignedSince.refl representable
  refine ⟨?_, link.sent_signed representable, ?_, ?_, ?_, ?_, ?_⟩
  · intro now readable method key content call made
    exact Client.signed_of_call made readable
  · intro method key content able
    exact link.exists_signed_ask able method content
  · intro method key request signedRequest
    exact signedRequest.alone_iff
  · intro usage same steps quiet
    rw [← same] at signed ⊢
    exact (Store.Usage.signedSince_run signed steps quiet).sent
  · intro session same calls
    rw [← same] at signed ⊢
    exact (Collector.Session.signedSince_performAll signed calls).sent
  · intro repository settings sameClient
    exact Store.sent_signed_connect representable repository sameClient

end Runs

namespace Client

/-- A client without a login in its address, in a leap second out of place: the one
authorization of its request is the one that is recomputed. -/
theorem deletion_in_a_leap_second_is_verified :
    let link : Link (Noted Http.Script) :=
      ⟨localClient, ⟨1175024189, 1999999999⟩, ⟨.ofResponses [], []⟩⟩
    let key := "d41d8cd98f00b204e9800998ecf8427e"
    link.clock.Representable ∧ link.client.CanSend key ∧
    ∃ request followUps authorization,
      (link.ask .delete key none).2.server.requests = link.server.requests ++ request :: followUps ∧
      request.method = .delete ∧
      link.client.recomputed key request = some authorization ∧
      Header.values "authorization" request.headers = [authorization] := by
  intro link key
  have representable : link.clock.Representable := ⟨by decide, by decide⟩
  have address : (Url.ofText? (localClient.address key)).any fun url =>
      decide (url.login = none) := by decide +kernel
  obtain ⟨url, found, noLogin⟩ := (Option.any_eq_true _ _).mp address
  have able : link.client.CanSend key := ⟨by decide, by decide, by decide, url, found⟩
  obtain ⟨signed, _, sent, alone, _⟩ := link.signatures_verify_at_the_receiver representable
  obtain ⟨call, followUps, made, grown, _⟩ := sent .delete key none able
  have signedCall := signed link.clock representable .delete key none call made
  obtain ⟨authorization, computed, shown⟩ :=
    (alone .delete key call.request signedCall).mpr ⟨url, found, of_decide_eq_true noLogin⟩
  exact ⟨representable, able, call.request, followUps, authorization, grown,
    signedCall.method_eq, computed, shown⟩

/-- With a login in its address a client authorizes a request twice, and the first of the
two is not the one that is recomputed. -/
theorem login_is_another_authorization :
    let client : Client :=
      ⟨"bucket", ⟨"id", "secret"⟩, "http://user:pw@localhost:9000", some "bucket.localhost"⟩
    let link : Link (Noted Http.Script) := ⟨client, ⟨1317662563, 0⟩, ⟨.ofResponses [], []⟩⟩
    let key := "d41d8cd98f00b204e9800998ecf8427e"
    client.credentials.secret ≠ "" ∧ link.clock.Representable ∧
    ∃ call followUps authorization,
      client.call link.clock .delete key none = .ok call ∧
      (link.ask .delete key none).2.server.requests =
        link.server.requests ++ call.request :: followUps ∧
      client.recomputed key call.request = some authorization ∧
      Header.values "authorization" call.request.headers =
        ["Basic dXNlcjpwdw==", authorization] ∧
      Header.value? "authorization" call.request.headers ≠
        client.recomputed key call.request := by
  intro client link key
  have representable : link.clock.Representable := ⟨by decide, by decide⟩
  have address : (Url.ofText? (client.address key)).any fun url =>
      decide (url.login = some ("user", "pw")) := by decide +kernel
  obtain ⟨url, found, loggedIn⟩ := (Option.any_eq_true _ _).mp address
  rw [decide_eq_true_eq] at loggedIn
  have able : client.CanSend key := ⟨by decide, by decide, by decide, url, found⟩
  have login : (Http.Call.loginHeader ("user", "pw")).value = "Basic dXNlcjpwdw==" := by
    decide +kernel
  obtain ⟨call, followUps, made, grown, _⟩ := link.exists_signed_ask able .delete none
  have signed := signed_of_call made representable
  obtain ⟨again, _, authorization, foundAgain, _, _, computed, shown⟩ := signed.verified
  rw [found] at foundAgain
  rw [← Option.some.inj foundAgain, loggedIn, Option.map_some, login] at shown
  refine ⟨by decide, representable, call, followUps, authorization, made, grown, computed,
    shown, ?_⟩
  unfold Header.value?
  rw [shown, computed, ← login]
  intro same
  exact Client.recomputed_ne_login computed _ (Option.some.inj same).symm

end Client

end ContentStore
