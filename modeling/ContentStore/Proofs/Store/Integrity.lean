import ContentStore.Bucket
import ContentStore.Proofs.Store.InHand

/-!
Contract: the contents that a store gives are those that were asked for,
whatever the remote does.

Owns:
- `Usage.Genuine`, the invariant of a store whose folder nobody else changes:
  its cache backs the binaries in hand, and lazy binaries are faithful;
- that every step which leaves the folder to the store keeps it;
- that the binaries which are put and got have the fingerprints of what was put
  and of what was asked for, and read accordingly for as long as they are held.

Does not own: whether an operation succeeds.
-/

namespace ContentStore.Store

variable {Connection : Type}

/-- Whether a step leaves what stands in the folder to the store. -/
def Step.IsOwn : Step Connection → Prop
  | .alter _ => False
  | .putWhile _ _ => False
  | _ => True

namespace Usage

variable {usage : Usage Connection} {deferred : LazyBinary}

/-- The invariant of a store whose folder nobody else changes. -/
structure Genuine (usage : Usage Connection) : Prop where
  backs : usage.store.cache.Backs usage.hands
  faithful : ∀ deferred ∈ usage.deferred, deferred.Faithful

theorem genuine_first (repository : String) (budget : Nat) (connection : Connection) :
    (first repository budget connection).Genuine where
  backs := ⟨Cache.genuine_empty budget false, List.Perm.refl _, by simp [first, hands]⟩
  faithful := by simp [first]

private theorem Genuine.backs_deferred (genuine : usage.Genuine)
    (member : deferred ∈ usage.deferred) :
    usage.store.cache.Backs (deferred.binary.toList ++
      (usage.binaries ++ (usage.deferred.erase deferred).filterMap LazyBinary.binary)) :=
  genuine.backs.of_perm (perm_deferred member)

variable [Remote Connection]

theorem keptInHand_backs (store : Store Connection) : store.KeptInHand Cache.Backs where
  perm := Cache.Backs.of_perm
  hold := Cache.Backs.hold
  release := Cache.Backs.release
  put := fun reader backs => backs.take (gives_put backs.genuine reader)
  get := fun fingerprint backs => backs.take (gives_get backs.genuine fingerprint)

namespace Genuine

/-- Whatever has been fetched by now is what was to be fetched. -/
theorem faithful_perform (genuine : usage.Genuine) {operation : Operation} {other : LazyBinary}
    (member : other ∈ (usage.perform operation).deferred) : other.Faithful := by
  rcases deferred_cases member with
    before | ⟨fingerprint, rfl⟩ | ⟨deferred, known, rfl | rfl⟩
  · exact genuine.faithful other before
  · exact fun binary fetched => absurd fetched (by simp [LazyBinary.ofFingerprint])
  · exact ((genuine.faithful deferred known).fetch (genuine.backs_deferred known)).1
  · obtain ⟨named, kept, _⟩ := deferred.fetchLength_binary usage.store
    intro binary fetched
    rw [kept] at fetched
    exact (genuine.faithful deferred known binary fetched).trans named.symm

theorem perform (genuine : usage.Genuine) (operation : Operation) :
    (usage.perform operation).Genuine where
  backs := (keptInHand_backs usage.store).perform genuine.backs operation
  faithful := fun _ member => genuine.faithful_perform member

/-- Every step that leaves the folder to the store keeps it genuine. -/
theorem step (genuine : usage.Genuine) {taken : Step Connection} (own : taken.IsOwn) :
    (usage.step taken).Genuine := by
  cases taken with
  | act operation => exact genuine.perform operation
  | surround locked medium => exact ⟨genuine.backs.surround locked rfl, genuine.faithful⟩
  | elsewhere change => exact ⟨genuine.backs, genuine.faithful⟩
  | alter folder => exact absurd own id
  | putWhile meanwhile reader => exact absurd own id

/-- Every run that leaves the folder to the store keeps it genuine. -/
theorem run (genuine : usage.Genuine) {steps : List (Step Connection)}
    (own : ∀ taken ∈ steps, taken.IsOwn) : (run steps usage).Genuine := by
  induction steps generalizing usage with
  | nil => exact genuine
  | cons taken rest inductionHypothesis =>
    apply inductionHypothesis (genuine.step (own taken List.mem_cons_self))
    intro later member
    exact own later (List.mem_cons_of_mem _ member)

end Genuine

omit [Remote Connection] in
private theorem mem_hands_take {result : Except StoreError Binary × Store Connection}
    {binary : Binary}
    (given : result.1 = .ok binary) : binary ∈ (usage.take result).hands := by
  obtain ⟨outcome, after⟩ := result
  cases given
  exact List.mem_cons_self

/-- Whatever the remote answers, what a put gives has the fingerprint of what
its reader yields, what a get or a fetch gives has the fingerprint that was asked
for, and callers have it in hand from then on; and every binary in hand reads a
content of its own fingerprint and length, as long as nobody else changes the
folder. -/
theorem binaries_in_hand_are_intact (repository : String) (budget : Nat)
    (connection : Connection) (history : List (Step Connection))
    (own : ∀ taken ∈ history, taken.IsOwn) (usage : Usage Connection)
    (reached : run history (first repository budget connection) = usage) :
    (∀ reader binary, (usage.store.put reader).1 = .ok binary →
      binary.fingerprint = Fingerprint.ofContent reader.content.1 ∧
        binary ∈ (usage.perform (.put reader)).hands) ∧
    (∀ fingerprint binary, (usage.store.get fingerprint).1 = .ok binary →
      binary.fingerprint = fingerprint ∧ binary ∈ (usage.perform (.get fingerprint)).hands) ∧
    (∀ deferred ∈ usage.deferred, ∀ binary, (deferred.fetch usage.store).1 = .ok binary →
      binary.fingerprint = deferred.fingerprint ∧
        binary ∈ (usage.perform (.fetch deferred)).hands) ∧
    ∀ binary ∈ usage.hands, ∃ content, usage.store.read binary = .ok content ∧
      Fingerprint.ofContent content = binary.fingerprint ∧ content.length = binary.length := by
  have genuine : usage.Genuine := by
    rw [← reached]
    exact (genuine_first repository budget connection).run own
  have cache := genuine.backs.genuine
  refine ⟨?_, ?_, ?_, ?_⟩
  · intro reader binary given
    exact ⟨((gives_put cache reader).given binary given).1, mem_hands_take given⟩
  · intro fingerprint binary given
    exact ⟨((gives_get cache fingerprint).given binary given).1, mem_hands_take given⟩
  · intro deferred member binary given
    obtain ⟨_, _, fetched⟩ :=
      (genuine.faithful deferred member).fetch (genuine.backs_deferred member)
    obtain ⟨named, kept⟩ := fetched binary given
    refine ⟨named, ?_⟩
    simp only [Usage.perform, Usage.replace, if_pos member]
    exact List.mem_append_right _ (List.mem_filterMap.mpr ⟨_, List.mem_cons_self, kept⟩)
  · intro binary member
    exact genuine.backs.read member

/-! ### A remote that lies -/

/-- A remote claims to hold what it does not, so that nothing is uploaded; asked
for another content, it sends a wrong one first. -/
def amongLies : List (Step Bucket) :=
  [.elsewhere fun bucket => bucket.addFault ⟨.head, none, .lie (some 7) [] ""⟩,
    .act (.put (Reader.ofContent [1])),
    .elsewhere fun bucket => bucket.addFault ⟨.get, none, .lie none [3] ""⟩,
    .act (.get (Fingerprint.ofContent [2])),
    .elsewhere fun bucket => bucket.addFault ⟨.get, none, .lie none [2] ""⟩,
    .act (.get (Fingerprint.ofContent [2]))]

/-- Both binaries are in hand and intact, though the cache may hold nothing. -/
theorem binaries_among_lies_are_intact :
    (run amongLies (first "" 0 (Bucket.empty ""))).hands.map Binary.fingerprint =
        [Fingerprint.ofContent [2], Fingerprint.ofContent [1]] ∧
      ∀ binary ∈ (run amongLies (first "" 0 (Bucket.empty ""))).hands, ∃ content,
        (run amongLies (first "" 0 (Bucket.empty ""))).store.read binary = .ok content ∧
          Fingerprint.ofContent content = binary.fingerprint ∧
            content.length = binary.length := by
  have own : ∀ taken ∈ amongLies, taken.IsOwn := by
    simp [amongLies, Step.IsOwn]
  refine ⟨by decide +kernel, ?_⟩
  exact (binaries_in_hand_are_intact "" 0 (Bucket.empty "") amongLies own _ rfl).2.2.2

end Usage

end ContentStore.Store
