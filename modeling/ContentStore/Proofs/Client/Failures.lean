import ContentStore.Proofs.Client.Methods
import ContentStore.Proofs.Settings

/-!
Contract: how calls on a bucket fail.

Owns:
- that a request which can be signed fails only for want of an answer;
- that a download fails because the object is absent, or through the remote;
- that opening a store with valid settings fails only for want of an answer.

Does not own: what the server answers, and when.
-/

namespace ContentStore

variable {State : Type} [Http.Server State] {cause : StoreError}

@[simp]
theorem Client.credentials_ofSettings (settings : Settings) :
    (Client.ofSettings settings).credentials = settings.credentials := by
  unfold Client.ofSettings
  split <;> rfl

/-- With a secret, a call cannot be made only if its address is none. -/
theorem Client.eq_transport_of_call {client : Client} {now : Calendar.Instant} {method : Method}
    {key : String} {content : Option Bytes} (secret : client.credentials.secret ≠ "")
    (failed : client.call now method key content = .error cause) : cause = .transport := by
  unfold Client.call Credentials.sign Signing.authorization Signing.signature at failed
  rw [if_neg secret] at failed
  simp only [Except.map, Bind.bind, Except.bind] at failed
  split at failed
  · exact absurd failed (by simp [Pure.pure, Except.pure])
  · exact (Except.error.inj failed).symm

namespace Link

variable {link : Link State} {method : Method} {key : String} {content : Option Bytes}

private theorem eq_transport_of_ask (secret : link.client.credentials.secret ≠ "")
    (failed : (link.ask method key content).1 = .error cause) : cause = .transport := by
  unfold ask at failed
  split at failed
  · rename_i early unmade
    rw [← Except.error.inj failed]
    exact Client.eq_transport_of_call secret unmade
  · simp only at failed
    split at failed
    · exact absurd failed (by simp)
    · exact (Except.error.inj failed).symm

private theorem eq_transport_of_createBucket (secret : link.client.credentials.secret ≠ "")
    (failed : link.createBucket.1 = .error cause) : cause = .transport := by
  have sameClient : (link.ask .get "" none).2.client = link.client := (link.ask_keeps _ _ _).1
  rcases looked : link.ask .get "" none with ⟨early | reply, after⟩ <;>
  rw [looked] at sameClient
  · unfold createBucket bucketExists at failed
    rw [looked] at failed
    rw [← Except.error.inj failed]
    exact eq_transport_of_ask secret (congrArg Prod.fst looked)
  · unfold createBucket bucketExists at failed
    rw [looked] at failed
    cases exists_ : reply.status == 200 with
    | true =>
      simp only [Except.map, exists_] at failed
      exact absurd failed (by simp)
    | false =>
      simp only [Except.map, exists_] at failed
      have able : after.client.credentials.secret ≠ "" := by
        rw [show after.client = link.client from sameClient]
        exact secret
      cases made : (after.ask .put "" none).1 with
      | error late =>
        rw [made] at failed
        rw [← Except.error.inj failed]
        exact eq_transport_of_ask able made
      | ok reply =>
        rw [made] at failed
        exact absurd failed (by simp)

/-- An object is not downloaded because it is absent, or through the remote. -/
theorem get_error_cases (secret : link.client.credentials.secret ≠ "")
    (failed : (link.get key).1.1 = .error cause) :
    cause = .notFound key ∨ cause.isRemote = true := by
  unfold get at failed
  split at failed
  · rename_i reply after _
    unfold download at failed
    split at failed
    · exact Or.inl (Except.error.inj failed).symm
    · right
      split at failed
      · split at failed
        · exact absurd failed (by simp)
        · rw [← Except.error.inj failed]
          rfl
      · rw [← Except.error.inj failed]
        rfl
  · rename_i early after unanswered
    right
    rw [← Except.error.inj failed, eq_transport_of_ask secret (congrArg Prod.fst unanswered)]
    rfl

end Link

/-- A store with valid settings cannot be opened only for want of an answer. -/
theorem Store.eq_transport_of_connect {repository : String} {settings : Settings}
    {clock : Calendar.Instant} {server : State} (valid : settings.Valid)
    (failed : (Store.connect repository settings clock server).1 = .error cause) :
    cause = .transport := by
  obtain ⟨budget, sized⟩ := valid.sized
  have secret : (Store.linkTo settings clock server).client.credentials.secret ≠ "" := by
    rw [show (Store.linkTo settings clock server).client = Client.ofSettings settings from rfl,
      Client.credentials_ofSettings]
    exact valid.secret_ne_empty
  unfold Store.connect at failed
  simp only [Settings.validate_eq_ok_iff.mpr valid, sized] at failed
  cases created : (Store.linkTo settings clock server).createBucket.1 with
  | error early =>
    rw [created] at failed
    rw [← Except.error.inj failed]
    exact Link.eq_transport_of_createBucket secret created
  | ok isNew =>
    rw [created] at failed
    exact absurd failed (by simp [Except.map])

end ContentStore
