import ContentStore.Proofs.Store.Integrity

/-!
Contract: what a lazy binary remembers of its calls, whatever happens meanwhile.

Owns:
- that a call which succeeds is remembered, and one which fails is not;
- `Following`, a store in use together with one lazy binary, whose calls come in
  any order among the steps of everybody else;
- that what has been fetched is given again, with the store as it was, and stays
  readable for as long as the lazy binary is there.

Does not own: when the store finds what it is asked for.
-/

namespace ContentStore

/-! ## Single calls -/

namespace LazyBinary

variable {Connection : Type} [Remote Connection] {store : Store Connection}
  {deferred : LazyBinary} {binary : Binary} {length : Nat}

/-- A binary that has been fetched is given as it is, and the store is not asked. -/
theorem fetch_of_fetched (fetched : deferred.binary = some binary) (store : Store Connection) :
    deferred.fetch store = (.ok binary, deferred, store) := by
  unfold fetch
  rw [fetched]

/-- A binary that has not been fetched is asked of the store, which is left as it answers. -/
theorem fetch_of_absent (absent : deferred.binary = none) (store : Store Connection) :
    (deferred.fetch store).1 = (store.get deferred.fingerprint).1 ∧
      (deferred.fetch store).2.2 = (store.get deferred.fingerprint).2 := by
  unfold fetch
  rw [absent]
  rcases store.get deferred.fingerprint with ⟨_ | _, after⟩ <;> exact ⟨rfl, rfl⟩

/-- A binary that a call gives is remembered, and a failure is not. -/
theorem fetch_remembers (deferred : LazyBinary) (store : Store Connection) :
    (deferred.fetch store).2.1 =
      { deferred with binary := (deferred.fetch store).1.toOption.or deferred.binary } := by
  obtain ⟨fingerprint, binary, length⟩ := deferred
  cases binary with
  | some binary => rfl
  | none =>
    simp only [fetch]
    rcases store.get fingerprint with ⟨_ | _, after⟩ <;> rfl

private theorem fetchLength_of_measured (measured : deferred.length = some length)
    (store : Store Connection) : deferred.fetchLength store = (.ok length, deferred, store) := by
  unfold fetchLength
  rw [measured]

private theorem fetchLength_of_absent (absent : deferred.length = none) (store : Store Connection) :
    (deferred.fetchLength store).1 = (store.length deferred.fingerprint).1 ∧
      (deferred.fetchLength store).2.2 = (store.length deferred.fingerprint).2 := by
  unfold fetchLength
  rw [absent]
  rcases store.length deferred.fingerprint with ⟨_ | _, after⟩ <;> exact ⟨rfl, rfl⟩

/-- A length that a call gives is remembered, and a failure is not. -/
theorem fetchLength_remembers (deferred : LazyBinary) (store : Store Connection) :
    (deferred.fetchLength store).2.1 =
      { deferred with
        length := (deferred.fetchLength store).1.toOption.or deferred.length } := by
  obtain ⟨fingerprint, binary, length⟩ := deferred
  cases length with
  | some length => rfl
  | none =>
    simp only [fetchLength]
    rcases store.length fingerprint with ⟨_ | _, after⟩ <;> rfl

end LazyBinary

/-! ## One lazy binary among everything else -/

namespace Store

variable {Connection : Type}

/-- A store in use, and a lazy binary of it that is followed. -/
structure Following (Connection : Type) where
  usage : Usage Connection
  deferred : LazyBinary

namespace Following

/-- A call on the lazy binary that is followed, or what others do. -/
inductive Event (Connection : Type) where
  | fetch
  | fetchFile
  | fetchLength
  /-- A caller takes a handle of its own on the binary, if it has been fetched. -/
  | share
  | meanwhile (taken : Step Connection)

/-- Whether an event leaves what stands in the folder to the store. -/
def Event.IsOwn : Event Connection → Prop
  | .meanwhile taken => taken.IsOwn
  | _ => True

/-- A lazy binary that has just been made. -/
def begin (usage : Usage Connection) (fingerprint : Fingerprint) : Following Connection :=
  ⟨usage, LazyBinary.ofFingerprint fingerprint⟩

def store (following : Following Connection) : Store Connection :=
  following.usage.store

/-- All that is in hand, the binary of the lazy one first. -/
def hands (following : Following Connection) : List Binary :=
  following.deferred.binary.toList ++ following.usage.hands

/-- The lazy binary and the store as a call has left them. -/
def become (following : Following Connection) (result : LazyBinary × Store Connection) :
    Following Connection :=
  ⟨{ following.usage with store := result.2 }, result.1⟩

variable [Remote Connection]

def step (following : Following Connection) : Event Connection → Following Connection
  | .fetch => following.become (following.deferred.fetch following.store).2
  | .fetchFile => following.become (following.deferred.fetchFile following.store).2
  | .fetchLength => following.become (following.deferred.fetchLength following.store).2
  | .share =>
    match following.deferred.binary with
    | some binary =>
      { following with
        usage := { following.usage with
          store := { following.store with cache := following.store.cache.hold binary.entry }
          binaries := binary :: following.usage.binaries } }
    | none => following
  | .meanwhile taken => { following with usage := following.usage.step taken }

def run : List (Event Connection) → Following Connection → Following Connection
  | [], following => following
  | event :: rest, following => run rest (following.step event)

variable {following : Following Connection} {events : List (Event Connection)}
  {event : Event Connection} {fingerprint : Fingerprint} {binary : Binary} {number : Nat}

/-- What every event of a run keeps, the run keeps. -/
theorem kept_run (Kept : Following Connection → Prop)
    (keeps : ∀ event ∈ events, ∀ following, Kept following → Kept (following.step event))
    (kept : Kept following) : Kept (run events following) := by
  induction events generalizing following with
  | nil => exact kept
  | cons event rest inductionHypothesis =>
    apply inductionHypothesis fun later member => keeps later (List.mem_cons_of_mem _ member)
    exact keeps event List.mem_cons_self following kept

/-! ### What is remembered -/

private theorem binary_fetch (following : Following Connection) :
    (following.step .fetch).deferred.binary =
      (following.deferred.fetch following.store).1.toOption.or following.deferred.binary := by
  show (following.deferred.fetch following.store).2.1.binary = _
  rw [LazyBinary.fetch_remembers]

private theorem length_fetchLength (following : Following Connection) :
    (following.step .fetchLength).deferred.length =
      (following.deferred.fetchLength following.store).1.toOption.or
        following.deferred.length := by
  show (following.deferred.fetchLength following.store).2.1.length = _
  rw [LazyBinary.fetchLength_remembers]

/-- Only a call for the content changes what is remembered of it. -/
theorem binary_step (notFetch : event ≠ .fetch) (notFetchFile : event ≠ .fetchFile) :
    (following.step event).deferred.binary = following.deferred.binary := by
  cases event with
  | fetch => exact absurd rfl notFetch
  | fetchFile => exact absurd rfl notFetchFile
  | fetchLength => exact (following.deferred.fetchLength_binary following.store).2.1
  | share =>
    simp only [step]
    split <;> rfl
  | meanwhile taken => rfl

/-- Only a call for the length changes what is remembered of it. -/
theorem length_step (notMeasure : event ≠ .fetchLength) :
    (following.step event).deferred.length = following.deferred.length := by
  have fetched : (following.deferred.fetch following.store).2.1.length =
      following.deferred.length := by
    rw [LazyBinary.fetch_remembers]
  cases event with
  | fetch => exact fetched
  | fetchFile => exact fetched
  | fetchLength => exact absurd rfl notMeasure
  | share =>
    simp only [step]
    split <;> rfl
  | meanwhile taken => rfl

private theorem binary_run_of_fetched (fetched : following.deferred.binary = some binary)
    (events : List (Event Connection)) :
    (run events following).deferred.binary = some binary := by
  apply kept_run (fun following => following.deferred.binary = some binary) _ fetched
  intro event _ following fetched
  have again : (following.step .fetch).deferred.binary = some binary := by
    rw [binary_fetch, LazyBinary.fetch_of_fetched fetched]
    rfl
  by_cases isFetch : event = .fetch
  · exact isFetch ▸ again
  · by_cases isFetchFile : event = .fetchFile
    · exact isFetchFile ▸ again
    · exact (binary_step isFetch isFetchFile).trans fetched

private theorem binary_run_of_notMem (noFetch : .fetch ∉ events) (noFetchFile : .fetchFile ∉ events)
    (following : Following Connection) :
    (run events following).deferred.binary = following.deferred.binary := by
  apply kept_run (fun later => later.deferred.binary = following.deferred.binary) _ rfl
  intro event member later same
  have other : event ≠ .fetch := fun isFetch => noFetch (isFetch ▸ member)
  have otherToo : event ≠ .fetchFile := fun isFetchFile => noFetchFile (isFetchFile ▸ member)
  exact (binary_step other otherToo).trans same

private theorem length_run_of_measured (measured : following.deferred.length = some number)
    (events : List (Event Connection)) :
    (run events following).deferred.length = some number := by
  apply kept_run (fun following => following.deferred.length = some number) _ measured
  intro event _ following measured
  by_cases isMeasure : event = .fetchLength
  · rw [isMeasure, length_fetchLength, LazyBinary.fetchLength_of_measured measured]
    rfl
  · exact (length_step isMeasure).trans measured

private theorem length_run_of_notMem (noMeasure : .fetchLength ∉ events)
    (following : Following Connection) :
    (run events following).deferred.length = following.deferred.length := by
  apply kept_run (fun later => later.deferred.length = following.deferred.length) _ rfl
  intro event member later same
  have other : event ≠ .fetchLength := fun isMeasure => noMeasure (isMeasure ▸ member)
  exact (length_step other).trans same

/-! ### What is in hand -/

/-- The lazy binary is that of a fingerprint, and the handles on the cache are those of all that
is in hand. -/
structure Sound (fingerprint : Fingerprint) (following : Following Connection) : Prop where
  named : following.deferred.fingerprint = fingerprint
  faithful : following.deferred.Faithful
  backs : following.store.cache.Backs following.hands

omit [Remote Connection] in
private theorem sound_begin {usage : Usage Connection} (genuine : usage.Genuine)
    (fingerprint : Fingerprint) : (begin usage fingerprint).Sound fingerprint where
  named := rfl
  faithful := fun binary fetched => absurd fetched (by simp [begin, LazyBinary.ofFingerprint])
  backs := genuine.backs

/-- Callers cannot break the handles on a cache, whoever else has some. -/
theorem keptInHand_backs_beside (store : Store Connection) (others : List Binary) :
    store.KeptInHand fun cache hands => cache.Backs (others ++ hands) where
  perm := fun backs permutation => backs.of_perm (permutation.append_left others)
  hold := fun backs member =>
    (backs.hold (List.mem_append_right others member)).of_perm List.perm_middle.symm
  release := fun backs => (backs.of_perm List.perm_middle).release
  put := fun reader backs =>
    (backs.take (gives_put backs.genuine reader)).of_perm (List.perm_append_comm_assoc _ _ _)
  get := fun fingerprint backs =>
    (backs.take (gives_get backs.genuine fingerprint)).of_perm (List.perm_append_comm_assoc _ _ _)

namespace Sound

private theorem fetch (sound : following.Sound fingerprint) :
    (following.step .fetch).Sound fingerprint := by
  obtain ⟨faithful, backs, _⟩ := sound.faithful.fetch sound.backs
  refine ⟨?_, faithful, backs⟩
  show (following.deferred.fetch following.store).2.1.fingerprint = fingerprint
  rw [LazyBinary.fetch_remembers]
  exact sound.named

private theorem fetchLength (sound : following.Sound fingerprint) :
    (following.step .fetchLength).Sound fingerprint := by
  obtain ⟨named, kept, untouched⟩ := following.deferred.fetchLength_binary following.store
  refine ⟨named.trans sound.named, ?_, ?_⟩
  · intro binary fetched
    exact (sound.faithful binary (kept.symm.trans fetched)).trans named.symm
  · show (following.deferred.fetchLength following.store).2.2.cache.Backs
      ((following.deferred.fetchLength following.store).2.1.binary.toList ++ following.usage.hands)
    rw [kept, untouched]
    exact sound.backs

/-- A handle that a caller takes joins those in hand. -/
theorem share (sound : following.Sound fingerprint) :
    (following.step .share).Sound fingerprint := by
  have backs := sound.backs
  unfold hands at backs
  simp only [Following.step]
  split
  · rename_i binary fetched
    rw [fetched] at backs
    refine ⟨sound.named, sound.faithful, ?_⟩
    have held := (backs.hold List.mem_cons_self).of_perm (List.Perm.swap _ _ _)
    unfold hands
    rw [fetched]
    exact held
  · exact sound

private theorem meanwhile (sound : following.Sound fingerprint) {taken : Step Connection}
    (own : taken.IsOwn) : (following.step (.meanwhile taken)).Sound fingerprint := by
  refine ⟨sound.named, sound.faithful, ?_⟩
  have backs := sound.backs
  cases taken with
  | act operation =>
    exact (keptInHand_backs_beside following.store following.deferred.binary.toList).perform
      backs operation
  | surround locked medium => exact backs.surround locked rfl
  | elsewhere change => exact backs
  | alter folder => exact absurd own id
  | putWhile meanwhile reader => exact absurd own id

private theorem step (sound : following.Sound fingerprint) (own : event.IsOwn) :
    (following.step event).Sound fingerprint := by
  cases event with
  | fetch => exact sound.fetch
  | fetchFile => exact sound.fetch
  | fetchLength => exact sound.fetchLength
  | share => exact sound.share
  | meanwhile taken => exact sound.meanwhile own

private theorem run (sound : following.Sound fingerprint) (own : ∀ event ∈ events, event.IsOwn) :
    (run events following).Sound fingerprint :=
  kept_run (fun following => following.Sound fingerprint)
    (fun event member _ sound => sound.step (own event member)) sound

end Sound

/-! ### What the calls give -/

/-- Calls for the content give a binary that is remembered, with the store as it was, so that its
remote has not been called; and the file of the binary reads a content of the fingerprint. -/
structure RemembersContent (fingerprint : Fingerprint) (binary : Binary)
    (following : Following Connection) : Prop where
  fetch : following.deferred.fetch following.store =
    (.ok binary, following.deferred, following.store)
  fetchFile : following.deferred.fetchFile following.store =
    (.ok true, following.deferred, following.store)
  reads : ∃ content, following.store.read binary = .ok content ∧
    Fingerprint.ofContent content = fingerprint

/-- Calls for the content give what the store gives, and leave it as it is then. -/
structure AsksForContent (fingerprint : Fingerprint) (following : Following Connection) :
    Prop where
  fetch : (following.deferred.fetch following.store).1 = (following.store.get fingerprint).1
  fetchFile : (following.deferred.fetchFile following.store).1 =
    (following.store.get fingerprint).1.map fun binary => binary.fingerprint == fingerprint
  fetchStore : (following.deferred.fetch following.store).2.2 =
    (following.store.get fingerprint).2
  fetchFileStore : (following.deferred.fetchFile following.store).2.2 =
    (following.store.get fingerprint).2

def RemembersLength (number : Nat) (following : Following Connection) : Prop :=
  following.deferred.fetchLength following.store =
    (.ok number, following.deferred, following.store)

structure AsksForLength (fingerprint : Fingerprint) (following : Following Connection) :
    Prop where
  fetchLength : (following.deferred.fetchLength following.store).1 =
    (following.store.length fingerprint).1
  store : (following.deferred.fetchLength following.store).2.2 =
    (following.store.length fingerprint).2

private theorem binary_of_fetch
    (given : (following.deferred.fetch following.store).1 = .ok binary) :
    (following.step .fetch).deferred.binary = some binary := by
  rw [binary_fetch, given]
  rfl

/-- A call for the content that fails finds nothing remembered, and leaves it so. -/
theorem absent_of_fetch {cause : StoreError}
    (failed : (following.deferred.fetch following.store).1 = .error cause) :
    following.deferred.binary = none ∧
      (following.step .fetch).deferred = following.deferred := by
  refine ⟨?_, ?_⟩
  · rw [Option.eq_none_iff_forall_not_mem]
    intro binary fetched
    rw [LazyBinary.fetch_of_fetched fetched] at failed
    exact absurd failed (by simp)
  · show (following.deferred.fetch following.store).2.1 = following.deferred
    rw [LazyBinary.fetch_remembers, failed]
    rfl

private theorem length_of_fetchLength
    (given : (following.deferred.fetchLength following.store).1 = .ok number) :
    (following.step .fetchLength).deferred.length = some number := by
  rw [length_fetchLength, given]
  rfl

private theorem absent_of_fetchLength {cause : StoreError}
    (failed : (following.deferred.fetchLength following.store).1 = .error cause) :
    following.deferred.length = none ∧
      (following.step .fetchLength).deferred = following.deferred := by
  refine ⟨?_, ?_⟩
  · rw [Option.eq_none_iff_forall_not_mem]
    intro length measured
    rw [LazyBinary.fetchLength_of_measured measured] at failed
    exact absurd failed (by simp)
  · show (following.deferred.fetchLength following.store).2.1 = following.deferred
    rw [LazyBinary.fetchLength_remembers, failed]
    rfl

private theorem exists_of_fetchFile {told : Bool}
    (given : (following.deferred.fetchFile following.store).1 = .ok told) :
    ∃ binary, (following.deferred.fetch following.store).1 = .ok binary ∧
      (binary.fingerprint == following.deferred.fingerprint) = told := by
  have given : (following.deferred.fetch following.store).1.map
      (fun binary => binary.fingerprint == following.deferred.fingerprint) = .ok told := given
  cases fetched : (following.deferred.fetch following.store).1 with
  | ok binary =>
    rw [fetched] at given
    exact ⟨binary, rfl, Except.ok.inj given⟩
  | error cause =>
    rw [fetched] at given
    exact absurd given (by simp [Except.map])

private theorem error_of_fetchFile {cause : StoreError}
    (failed : (following.deferred.fetchFile following.store).1 = .error cause) :
    (following.deferred.fetch following.store).1 = .error cause := by
  have failed : (following.deferred.fetch following.store).1.map
      (fun binary => binary.fingerprint == following.deferred.fingerprint) = .error cause := failed
  cases fetched : (following.deferred.fetch following.store).1 with
  | ok binary =>
    rw [fetched] at failed
    exact absurd failed (by simp [Except.map])
  | error other =>
    rw [fetched] at failed
    rw [Except.error.inj failed]

namespace Sound

private theorem remembersContent (sound : following.Sound fingerprint)
    (fetched : following.deferred.binary = some binary) :
    following.RemembersContent fingerprint binary := by
  have named : binary.fingerprint = following.deferred.fingerprint :=
    sound.faithful binary fetched
  have inHand : binary ∈ following.hands := by
    unfold hands
    rw [fetched]
    exact List.mem_cons_self
  obtain ⟨content, read, hashed, _⟩ := sound.backs.read inHand
  refine ⟨LazyBinary.fetch_of_fetched fetched _, ?_, content, read, ?_⟩
  · unfold LazyBinary.fetchFile
    rw [LazyBinary.fetch_of_fetched fetched]
    simp only [Except.map, named, beq_self_eq_true]
  · rw [hashed, named, sound.named]

private theorem asksForContent (sound : following.Sound fingerprint)
    (absent : following.deferred.binary = none) : following.AsksForContent fingerprint := by
  obtain ⟨outcome, after⟩ := LazyBinary.fetch_of_absent absent following.store
  rw [sound.named] at outcome after
  refine ⟨outcome, ?_, after, after⟩
  show (following.deferred.fetch following.store).1.map _ = _
  rw [outcome, sound.named]

private theorem asksForLength (sound : following.Sound fingerprint)
    (absent : following.deferred.length = none) : following.AsksForLength fingerprint := by
  obtain ⟨outcome, after⟩ := LazyBinary.fetchLength_of_absent absent following.store
  rw [sound.named] at outcome after
  exact ⟨outcome, after⟩

/-- Whenever a call for the content gives something, it is what was asked for. -/
theorem fetchFile_ne (sound : following.Sound fingerprint) :
    (following.deferred.fetchFile following.store).1 ≠ .ok false := by
  intro told
  obtain ⟨binary, given, different⟩ := exists_of_fetchFile told
  obtain ⟨_, _, fetched⟩ := sound.faithful.fetch sound.backs
  obtain ⟨named, _⟩ := fetched binary given
  rw [named, beq_self_eq_true] at different
  exact absurd different (by simp)

end Sound

/-- Whatever the remote answers and whatever others do to the store, as long as they leave its
folder alone, a lazy binary never tells that it has fetched something else.  What a call has given
is given by all later ones, with no use of the store, and the content stays readable; a call that
failed leaves the lazy binary as it was, so that the store is asked the next time.  The content and
the length are remembered apart from each other. -/
theorem lazy_binary_is_fetched_once (repository : String) (budget : Nat) (connection : Connection)
    (history : List (Step Connection)) (ownHistory : ∀ taken ∈ history, taken.IsOwn)
    (fingerprint : Fingerprint) (earlier : List (Event Connection))
    (ownEarlier : ∀ event ∈ earlier, event.IsOwn) (now : Following Connection)
    (reached : run earlier
      (begin (Usage.run history (Usage.first repository budget connection)) fingerprint) = now) :
    (now.deferred.fetchFile now.store).1 ≠ .ok false ∧
    (∀ binary, (now.deferred.fetch now.store).1 = .ok binary →
      ∀ later, (∀ event ∈ later, event.IsOwn) →
        (run later (now.step .fetch)).RemembersContent fingerprint binary) ∧
    (∀ told, (now.deferred.fetchFile now.store).1 = .ok told → ∃ binary,
      ∀ later, (∀ event ∈ later, event.IsOwn) →
        (run later (now.step .fetchFile)).RemembersContent fingerprint binary) ∧
    (∀ number, (now.deferred.fetchLength now.store).1 = .ok number →
      ∀ later, (run later (now.step .fetchLength)).RemembersLength number) ∧
    (∀ cause, (now.deferred.fetch now.store).1 = .error cause ∨
        (now.deferred.fetchFile now.store).1 = .error cause →
      (now.step .fetch).deferred = now.deferred ∧
      (now.step .fetchFile).deferred = now.deferred ∧
      ∀ later, (∀ event ∈ later, event.IsOwn) → .fetch ∉ later → .fetchFile ∉ later →
        (run later (now.step .fetch)).AsksForContent fingerprint ∧
        (run later (now.step .fetchFile)).AsksForContent fingerprint) ∧
    (∀ cause, (now.deferred.fetchLength now.store).1 = .error cause →
      (now.step .fetchLength).deferred = now.deferred ∧
      ∀ later, (∀ event ∈ later, event.IsOwn) → .fetchLength ∉ later →
        (run later (now.step .fetchLength)).AsksForLength fingerprint) := by
  have sound : now.Sound fingerprint := by
    rw [← reached]
    exact (sound_begin ((Usage.genuine_first repository budget connection).run ownHistory)
      fingerprint).run ownEarlier
  refine ⟨sound.fetchFile_ne, ?_, ?_, ?_, ?_, ?_⟩
  · intro binary given later own
    exact (sound.fetch.run own).remembersContent
      (binary_run_of_fetched (binary_of_fetch given) later)
  · intro told given
    obtain ⟨binary, given, _⟩ := exists_of_fetchFile given
    refine ⟨binary, fun later own => ?_⟩
    exact (sound.fetch.run own).remembersContent
      (binary_run_of_fetched (binary_of_fetch given) later)
  · intro number given later
    exact LazyBinary.fetchLength_of_measured
      (length_run_of_measured (length_of_fetchLength given) later) _
  · intro cause failed
    have failed : (now.deferred.fetch now.store).1 = .error cause :=
      failed.elim id error_of_fetchFile
    obtain ⟨absent, same⟩ := absent_of_fetch failed
    refine ⟨same, same, fun later own noFetch noFetchFile => ?_⟩
    have stillAbsent : (run later (now.step .fetch)).deferred.binary = none := by
      rw [binary_run_of_notMem noFetch noFetchFile, same, absent]
    have asks := (sound.fetch.run own).asksForContent stillAbsent
    exact ⟨asks, asks⟩
  · intro cause failed
    obtain ⟨absent, same⟩ := absent_of_fetchLength failed
    refine ⟨same, fun later own noMeasure => ?_⟩
    have stillAbsent : (run later (now.step .fetchLength)).deferred.length = none := by
      rw [length_run_of_notMem noMeasure, same, absent]
    exact (sound.fetchLength.run own).asksForLength stillAbsent

/-! ### A content that is removed -/

/-- A content is stored and evicted, and the first download is going to fail. -/
def awayFromCache : List (Step Bucket) :=
  [.act (.put (Reader.ofContent [1])),
    .act (.drop ⟨⟨0, Fingerprint.ofContent [1], 1⟩, Fingerprint.ofContent [1], ""⟩),
    .act (.put (Reader.ofContent [2])),
    .elsewhere fun bucket => bucket.addFault ⟨.get, none, .failure (.remoteFailure 500 "") []⟩]

/-- The content is swept out of the bucket, and others are stored. -/
def sweptAway : List (Event Bucket) :=
  [.meanwhile (.act .start), .meanwhile (.act (.stop true 0)), .fetchLength, .share,
    .meanwhile (.act (.remove (Fingerprint.ofContent [1]))), .fetchFile,
    .meanwhile (.act (.put (Reader.ofContent [3])))]

/-- The first call fails and the second does not; what it has given stays. -/
theorem swept_content_is_remembered :
    let fingerprint := Fingerprint.ofContent [1]
    let fresh := begin (Usage.run awayFromCache (Usage.first "" 1 (Bucket.empty ""))) fingerprint
    let once := fresh.step .fetch
    (fresh.deferred.fetch fresh.store).1 = .error (.remoteFailure 500 "") ∧
    once.AsksForContent fingerprint ∧
    ∃ binary, (once.deferred.fetch once.store).1 = .ok binary ∧
      (run sweptAway (once.step .fetch)).RemembersContent fingerprint binary := by
  intro fingerprint fresh once
  have ownHistory : ∀ taken ∈ awayFromCache, taken.IsOwn := by
    simp [awayFromCache, Store.Step.IsOwn]
  have own : ∀ event ∈ sweptAway, event.IsOwn := by
    simp [sweptAway, Event.IsOwn, Store.Step.IsOwn]
  have failed : (fresh.deferred.fetch fresh.store).1 = .error (.remoteFailure 500 "") := by
    decide +kernel
  obtain ⟨_, _, _, _, failing, _⟩ := lazy_binary_is_fetched_once "" 1 (Bucket.empty "")
    awayFromCache ownHistory fingerprint [] (by simp) fresh rfl
  obtain ⟨_, _, asks⟩ := failing _ (Or.inl failed)
  have reached : run [.fetch] fresh = once := by
    simp only [run, once]
  obtain ⟨_, giving, _⟩ := lazy_binary_is_fetched_once "" 1 (Bucket.empty "")
    awayFromCache ownHistory fingerprint [.fetch] (by simp [Event.IsOwn]) once reached
  have given : (once.deferred.fetch once.store).1 =
      .ok ⟨⟨2, fingerprint, 1⟩, fingerprint, ""⟩ := by
    decide +kernel
  exact ⟨failed, (asks [] (by simp) (by simp) (by simp)).1, _, given, giving _ given _ own⟩

end Following

end Store

end ContentStore
