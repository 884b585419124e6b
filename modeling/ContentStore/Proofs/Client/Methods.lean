import ContentStore.Proofs.Client.Addressing
import ContentStore.Store.Connect

/-!
Contract: the methods of the requests that are sent.

Owns:
- `Noted`, a server that notes all requests and answers as another one does;
- `Noted.Sent`, by which all requests between two moments fulfil a condition;
- that a call is sent, and sent on when it is redirected, with its own method or
  to get something;
- that opening a store deletes nothing.

Does not own: where requests lead.
-/

namespace ContentStore

namespace Http

/-- A server that answers as another one does, and notes all requests. -/
structure Noted (State : Type) where
  state : State
  /-- The requests so far, earliest first. -/
  requests : List Request

namespace Noted

variable {State : Type} {first second third : Noted State} {allowed other : Request → Prop}

instance [Server State] : Server (Noted State) where
  answer request noted :=
    let (response, after) := Server.answer request noted.state
    (response, ⟨after, noted.requests ++ [request]⟩)

/-- What was sent between two moments is allowed. -/
def Sent (allowed : Request → Prop) (before after : Noted State) : Prop :=
  ∃ sent, after.requests = before.requests ++ sent ∧ ∀ request ∈ sent, allowed request

theorem Sent.refl (noted : Noted State) : Sent allowed noted noted :=
  ⟨[], (List.append_nil _).symm, by simp⟩

theorem Sent.trans (sooner : Sent allowed first second) (later : Sent allowed second third) :
    Sent allowed first third := by
  obtain ⟨sent, grown, lawful⟩ := sooner
  obtain ⟨more, grownMore, lawfulMore⟩ := later
  refine ⟨sent ++ more, by rw [grownMore, grown, List.append_assoc], ?_⟩
  intro request member
  rcases List.mem_append.mp member with among | among
  · exact lawful request among
  · exact lawfulMore request among

theorem Sent.mono (sent : Sent allowed first second)
    (weaker : ∀ request, allowed request → other request) : Sent other first second := by
  obtain ⟨requests, grown, lawful⟩ := sent
  exact ⟨requests, grown, fun request member => weaker request (lawful request member)⟩

end Noted

namespace Call

variable {State : Type} [Server State]

/-- A request keeps the method it is made with, unless it is sent on to get
something else. -/
def Keeps (method : Method) (request : Request) : Prop :=
  request.method = method ∨ request.method = .get

private theorem method_of_outcome {call next : Call} {reply : Reply}
    (redirected : call.outcome reply = .next next) :
    next.method = call.method ∨ next.method = .get := by
  have under : (call.underStatus reply.status).method = call.method ∨
      (call.underStatus reply.status).method = .get := by
    unfold underStatus
    split
    · by_cases isHead : call.method = .head
      · exact Or.inl (by rw [if_pos isHead, isHead])
      · exact Or.inr (if_neg isHead)
    · exact Or.inl rfl
  unfold outcome at redirected
  simp only at redirected
  split at redirected
  · split at redirected
    · exact Outcome.noConfusion redirected
    · split at redirected
      · exact Outcome.noConfusion redirected
      · exact Outcome.noConfusion redirected
      · rw [← Outcome.next.inj redirected]
        exact under
  · exact Outcome.noConfusion redirected

theorem sent_exchange (call : Call) (noted : Noted State) :
    Noted.Sent (fun request => request = call.request) noted (call.exchange noted).2 := by
  unfold exchange
  split
  · exact ⟨[call.request], rfl, fun request member => List.mem_singleton.mp member⟩
  · exact Noted.Sent.refl noted

/-- Sending is over after one exchange, or goes on with a call that the answer
redirects to. -/
theorem sendWithin_cases (fuel : Nat) (call : Call) (server : State) :
    (call.sendWithin fuel server).2 = (call.exchange server).2 ∨
      ∃ reply next less, call.outcome reply = .next next ∧ fuel = less + 1 ∧
        call.sendWithin fuel server = next.sendWithin less (call.exchange server).2 := by
  unfold sendWithin
  cases call.exchange server with
  | mk answer after =>
    cases answer with
    | none => exact Or.inl rfl
    | some reply =>
      cases redirected : call.outcome reply with
      | final => simp only [redirected, true_or]
      | failed => simp only [redirected, true_or]
      | next next =>
        cases fuel with
        | zero => simp only [redirected, true_or]
        | succ less =>
          refine Or.inr ⟨reply, next, less, redirected, rfl, ?_⟩
          simp only [redirected]
          rw [sendWithin]

private theorem sent_sendWithin (fuel : Nat) (call : Call) (noted : Noted State) :
    Noted.Sent (Keeps call.method) noted (call.sendWithin fuel noted).2 := by
  induction fuel using Nat.strongRecOn generalizing call noted with
  | ind fuel inductionHypothesis =>
    have once : Noted.Sent (Keeps call.method) noted (call.exchange noted).2 :=
      (sent_exchange call noted).mono fun request same => Or.inl (congrArg Request.method same)
    rcases sendWithin_cases fuel call noted with final | ⟨reply, next, less, redirected, rfl, on⟩
    · rw [final]
      exact once
    · rw [on]
      apply once.trans
      apply (inductionHypothesis less (Nat.lt_succ_self less) next _).mono
      rintro request (kept | gets)
      · rcases method_of_outcome redirected with same | gets
        · exact Or.inl (kept.trans same)
        · exact Or.inr (kept.trans gets)
      · exact Or.inr gets

end Call

end Http

/-! ## Calls on a link -/

namespace Link

variable {State : Type} [Http.Server State]

open Http (Noted)
open Http.Call (Keeps)

theorem sent_ask (method : Method) (key : String) (content : Option Bytes)
    (link : Link (Noted State)) :
    Noted.Sent (Keeps method) link.server (link.ask method key content).2.server := by
  unfold ask
  split
  · exact Noted.Sent.refl _
  · rename_i call made
    obtain ⟨signed, url, _, _, rfl⟩ := Client.call_ok made
    exact Http.Call.sent_sendWithin _ _ _

theorem sent_list (link : Link (Noted State)) :
    Noted.Sent (fun request => request.method ≠ .delete) link.server link.list.2.server := by
  apply (sent_ask .get "" none link).mono
  rintro request (gets | gets) <;> simp [gets]

/-- To create a bucket is to look for it, and then at most to make it. -/
theorem createBucket_cases {State : Type} [Http.Server State] (link : Link State) :
    link.createBucket.2 = (link.ask .get "" none).2 ∨
      link.createBucket.2 = ((link.ask .get "" none).2.ask .put "" none).2 := by
  have looked : link.bucketExists.2 = (link.ask .get "" none).2 := rfl
  unfold createBucket
  split
  · rename_i after found
    rw [found] at looked
    exact Or.inl looked
  · rename_i after missing
    rw [missing] at looked
    exact Or.inr (by rw [← looked])
  · rename_i cause after failed
    rw [failed] at looked
    exact Or.inl looked

/-- A call changes neither the client nor its clock. -/
theorem ask_keeps {State : Type} [Http.Server State] (link : Link State) (method : Method)
    (key : String) (content : Option Bytes) :
    (link.ask method key content).2.client = link.client ∧
      (link.ask method key content).2.clock = link.clock := by
  unfold ask
  split <;> exact ⟨rfl, rfl⟩

theorem createBucket_keeps {State : Type} [Http.Server State] (link : Link State) :
    link.createBucket.2.client = link.client ∧ link.createBucket.2.clock = link.clock := by
  have looked := link.ask_keeps .get "" none
  rcases createBucket_cases link with same | made
  · rw [same]
    exact looked
  · rw [made]
    have created := (link.ask .get "" none).2.ask_keeps .put "" none
    exact ⟨created.1.trans looked.1, created.2.trans looked.2⟩

private theorem sent_createBucket (link : Link (Noted State)) :
    Noted.Sent (fun request => request.method ≠ .delete) link.server
      link.createBucket.2.server := by
  have looked : Noted.Sent (fun request => request.method ≠ .delete) link.server
      (link.ask .get "" none).2.server := by
    apply (sent_ask .get "" none link).mono
    rintro request (gets | gets) <;> simp [gets]
  rcases createBucket_cases link with same | made
  · rw [same]
    exact looked
  · rw [made]
    apply looked.trans
    apply (sent_ask .put "" none _).mono
    rintro request (puts | gets)
    · simp [puts]
    · simp [gets]

end Link

/-- To open a store is to look for its bucket and to create it. -/
theorem Store.sent_connect {State : Type} [Http.Server State] (repository : String)
    (settings : Settings) (clock : Calendar.Instant) (noted : Http.Noted State) :
    Http.Noted.Sent (fun request => request.method ≠ .delete) noted
      (Store.connect repository settings clock noted).2 := by
  unfold connect
  split
  · exact Http.Noted.Sent.refl _
  · exact Http.Noted.Sent.refl _
  · exact Link.sent_createBucket (linkTo settings clock noted)

end ContentStore
