import ContentStore.Client
import ContentStore.Proofs.Url.PlainKey

/-!
Contract: which object a request of a client is addressed to.

Owns:
- `Http.Request.Addresses`, by which the target of a request names a key and
  nothing else;
- that the requests of a client address the keys they are signed for exactly if
  these are plain.

Does not own: redirections, and what a server makes of an address.
-/

namespace ContentStore

/-- The target of a request is a path that spells a key behind a slash, without
a query. -/
def Http.Request.Addresses (request : Http.Request) (key : String) : Prop :=
  '?' ∉ request.target.toList ∧
    Url.percentDecode request.target.toList = Text.Utf8.encode ("/" ++ key)

namespace Client

variable {client : Client} {now : Calendar.Instant} {method : Method} {key : String}
  {content : Option Bytes} {call : Http.Call}

/-- A call is made of a signature for a key and of the address of the key. -/
theorem call_ok (made : client.call now method key content = .ok call) :
    ∃ signed url,
      client.credentials.sign (SignedParts.plain method client.bucket key) now = .ok signed ∧
        Url.ofText? (client.base ++ "/" ++ key) = some url ∧
          call = Http.Call.toAddress method url client.host (signature signed) content := by
  unfold Client.call at made
  cases signing : client.credentials.sign (SignedParts.plain method client.bucket key) now with
  | error cause =>
    rw [signing] at made
    exact absurd made (by simp [bind, Except.bind])
  | ok signed =>
    rw [signing] at made
    simp only [bind, Except.bind] at made
    split at made
    · rename_i url found
      exact ⟨signed, url, rfl, found, (Except.ok.inj made).symm⟩
    · exact absurd made (by simp [throw, throwThe, MonadExceptOf.throw])

/-- A request that a client with a host makes for a key carries a signature for
this key.  It addresses the key exactly if the key is plain; and if the key is
plain, only that of the bucket itself is addressed by the root. -/
theorem request_addresses_key_iff_plain
    (hosted : ∃ scheme authority, Url.BaseOf scheme authority client.base)
    (made : client.call now method key content = .ok call) :
    (∃ signed,
      client.credentials.sign (SignedParts.plain method client.bucket key) now = .ok signed ∧
        ∀ header ∈ signature signed, header ∈ call.request.headers) ∧
    (call.request.Addresses key ↔ Url.PlainKey key) ∧
    (Url.PlainKey key → call.request.target = "/" → key = "") := by
  obtain ⟨scheme, authority, isBase⟩ := hosted
  obtain ⟨signed, url, signing, found, rfl⟩ := call_ok made
  have stands := Url.target_stands_iff isBase found
  refine ⟨⟨signed, signing, ?_⟩, stands, ?_⟩
  · intro header member
    apply List.mem_cons_of_mem
    apply List.mem_cons_of_mem
    apply List.mem_append_left
    exact List.mem_append_right _ member
  · intro plain root
    obtain ⟨_, spelled⟩ := stands.mpr plain
    have rootTarget : url.target = "/" := root
    have rootSpelled : Url.percentDecode "/".toList = Text.Utf8.encodeSymbols "/".toList := by
      decide
    rw [rootTarget, rootSpelled] at spelled
    have same := Text.Utf8.encodeSymbols_injective spelled
    rw [String.toList_append] at same
    have rest := List.append_cancel_left ((List.append_nil _).trans same)
    exact String.toList_eq_nil_iff.mp rest.symm

/-! ### Keys that a listing may name -/

def localClient : Client :=
  ⟨"bucket", ⟨"id", "secret"⟩, "http://localhost:9000", some "bucket.localhost"⟩

theorem baseOf_localClient : Url.BaseOf .http "localhost:9000".toList localClient.base where
  spelled := ⟨"http".toList, "//".toList, by decide, by decide, by decide⟩
  some_host := by decide
  inside := by decide

private theorem exists_call_of_target {target : String}
    (sent : (client.call now method key content).map (fun call => call.request.target) =
      .ok target) :
    ∃ call, client.call now method key content = .ok call ∧ call.request.target = target := by
  cases made : client.call now method key content with
  | error cause =>
    rw [made] at sent
    exact absurd sent (by simp [Except.map])
  | ok call =>
    rw [made] at sent
    exact ⟨call, rfl, Except.ok.inj sent⟩

/-- The call on a fingerprint reaches its object, -/
theorem fingerprint_is_addressed :
    ∃ call, localClient.call ⟨0, 0⟩ .delete "d41d8cd98f00b204e9800998ecf8427e" none = .ok call ∧
      call.request.target = "/d41d8cd98f00b204e9800998ecf8427e" ∧
      call.request.Addresses "d41d8cd98f00b204e9800998ecf8427e" := by
  obtain ⟨call, made, target⟩ := exists_call_of_target
    (show (localClient.call ⟨0, 0⟩ .delete "d41d8cd98f00b204e9800998ecf8427e" none).map
      (fun call => call.request.target) = .ok "/d41d8cd98f00b204e9800998ecf8427e" by
        decide +kernel)
  have addressed := request_addresses_key_iff_plain ⟨_, _, baseOf_localClient⟩ made
  exact ⟨call, made, target, addressed.2.1.mpr (Url.plainKey_fingerprint ⟨_, by decide⟩)⟩

/-- but with more behind a question mark the same object is asked for, and two
points stand for the bucket. -/
theorem other_keys_are_not_addressed :
    (∃ call, localClient.call ⟨0, 0⟩ .delete "d41d8cd98f00b204e9800998ecf8427e?x" none =
        .ok call ∧
      call.request.target = "/d41d8cd98f00b204e9800998ecf8427e?x" ∧
      ¬ call.request.Addresses "d41d8cd98f00b204e9800998ecf8427e?x") ∧
    ∃ call, localClient.call ⟨0, 0⟩ .delete ".." none = .ok call ∧
      call.request.target = "/" ∧ ¬ call.request.Addresses ".." := by
  constructor
  · obtain ⟨call, made, target⟩ := exists_call_of_target
      (show (localClient.call ⟨0, 0⟩ .delete "d41d8cd98f00b204e9800998ecf8427e?x" none).map
        (fun call => call.request.target) = .ok "/d41d8cd98f00b204e9800998ecf8427e?x" by
          decide +kernel)
    refine ⟨call, made, target, ?_⟩
    rintro ⟨noQuestion, _⟩
    rw [target] at noQuestion
    exact noQuestion (by decide)
  · obtain ⟨call, made, target⟩ := exists_call_of_target
      (show (localClient.call ⟨0, 0⟩ .delete ".." none).map
        (fun call => call.request.target) = .ok "/" by decide +kernel)
    refine ⟨call, made, target, ?_⟩
    rintro ⟨_, spelled⟩
    rw [target] at spelled
    exact absurd spelled (by decide)

end Client

end ContentStore
