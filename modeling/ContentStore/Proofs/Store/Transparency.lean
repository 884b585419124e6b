import ContentStore.Proofs.Cache.Mirror
import ContentStore.Proofs.Store.Integrity
import ContentStore.Proofs.Store.Plain

/-!
Contract: over a truthful bucket, a store with a cache gives what a plain map
would.

Owns:
- `Coherent`, by which the bucket is truthful and the cached files are copies of
  what it holds, and how each call ends on a coherent store;
- `Use`, by which callers also clone and drop the binaries that they have;
- that neither the budget nor the binaries in hand show in any answer.

Does not own: removals and sweeps, by which a cache falls behind its bucket.
-/

namespace ContentStore.Store

variable {store : Store Bucket} {content : Bytes} {reader : Reader} {kind : IoKind}
  {fingerprint : Fingerprint}

/-- The bucket is truthful, and the cached files are copies of what it holds. -/
structure Coherent (store : Store Bucket) : Prop where
  truthful : store.connection.Truthful
  mirrors : store.cache.Mirrors store.connection.contents

private theorem coherent_overRemote (repository : String) (budget : Nat) {bucket : Bucket}
    (truthful : bucket.Truthful) : (overRemote repository budget bucket).Coherent :=
  ⟨truthful, Cache.mirrors_empty budget false bucket.contents⟩

/-- How a call ends that gives a binary with a certain content: the bucket has
the objects of `bucket`, and the store is coherent. -/
structure Serves (bucket : Bucket) (fingerprint : Fingerprint) (content : Bytes)
    (result : Except StoreError Binary × Store Bucket) : Prop where
  coherent : result.2.Coherent
  objects : result.2.connection.objects = bucket.objects
  given : ∃ binary, result.1 = .ok binary ∧ binary.fingerprint = fingerprint ∧
    result.2.read binary = .ok content ∧ binary.length = content.length

/-- How a call ends that gives no binary. -/
structure Declines (bucket : Bucket) (cause : StoreError)
    (result : Except StoreError Binary × Store Bucket) : Prop where
  coherent : result.2.Coherent
  objects : result.2.connection.objects = bucket.objects
  refused : result.1 = .error cause

/-- A bucket without faults is offered a content that is uploaded. -/
theorem upload_of_calm {bucket : Bucket} (calm : bucket.faults = []) (content : Bytes) :
    upload (Fingerprint.ofContent content) (.ok content) bucket =
      (.ok (), bucket.offered content) := by
  have asked : Remote.head (Fingerprint.ofContent content).text bucket = _ :=
    Bucket.head_of_calm calm (Fingerprint.ofContent content).text
  unfold upload Bucket.offered Bucket.contents
  rw [asked]
  cases bucket.find? (Fingerprint.ofContent content).text with
  | some object => rfl
  | none =>
    have stored : Remote.putFile (.ok content)
        (bucket.noting .head (Fingerprint.ofContent content).text) = _ :=
      Bucket.put_of_calm (show (bucket.noting .head _).faults = [] from calm) content
    simp only [stored, if_pos]
    rfl

/-- The bucket holds a content that was uploaded, and nothing else changes. -/
theorem upload_of_truthful {bucket : Bucket} (truthful : bucket.Truthful) (content : Bytes) :
    ∃ after, upload (Fingerprint.ofContent content) (.ok content) bucket = (.ok (), after) ∧
      after.Truthful ∧ after.objects = (bucket.adding content).objects := by
  refine ⟨_, upload_of_calm truthful.calm content, ?_, bucket.objects_offered content⟩
  unfold Bucket.offered
  split
  · exact ((truthful.noting _ _).noting _ _).insert content
  · exact truthful.noting _ _

/-- What a map holds under its fingerprint is accepted by a cache of copies. -/
theorem accept_of_mirrors {cache : Cache} {contents : Contents} (mirrors : cache.Mirrors contents)
    (held : contents (Fingerprint.ofContent content) = some content) :
    ∃ entry after, accept (Fingerprint.ofContent content) content cache = (.ok entry, after) ∧
      after.Mirrors contents ∧ entry ∈ after.entries ∧
        entry.fingerprint = Fingerprint.ofContent content := by
  obtain ⟨entry, after, inserted, accepted⟩ := mirrors.insert_created held
  refine ⟨entry, after, ?_, accepted⟩
  unfold accept
  simp only [if_true, inserted]

namespace Coherent

/-- A binary whose entry is cached reads as the bucket says. -/
theorem read (coherent : store.Coherent) {binary : Binary}
    (cached : binary.entry ∈ store.cache.entries)
    (present : store.connection.contents binary.entry.fingerprint = some content) :
    store.read binary = .ok content ∧ binary.length = content.length := by
  obtain ⟨copied, read, measured, held⟩ := coherent.mirrors.read cached
  rw [present] at held
  obtain rfl := Option.some.inj held
  exact ⟨read, measured.symm⟩

/-- A content that is put is given back as a binary, whatever the cache holds. -/
theorem put_of_content (coherent : store.Coherent) (yields : reader.content = (content, none))
    (alone : ∀ held, store.connection.contents (Fingerprint.ofContent content) = some held →
      held = content) :
    Serves (store.connection.adding content) (Fingerprint.ofContent content) content
      (store.put reader) := by
  have enlarged : store.cache.Mirrors (store.connection.contents.adding content) :=
    coherent.mirrors.mono fun _ _ => Contents.adding_of_some content
  have added := Contents.adding_self alone
  obtain ⟨entry, cache, inserted, mirrors, member, named⟩ := enlarged.insert_created added
  obtain ⟨copied, read, measured, held⟩ := mirrors.read member
  rw [named, added] at held
  obtain rfl := Option.some.inj held
  obtain ⟨connection, uploaded, truthful, objects⟩ :=
    upload_of_truthful coherent.truthful content
  have done : store.put reader = (.ok (store.binaryOf (Fingerprint.ofContent content) entry),
      { store with cache := cache, connection := connection }) := by
    unfold put putWhile
    simp only [Cache.receive_of_content coherent.mirrors.free yields, inserted, read, uploaded]
  rw [done]
  refine ⟨⟨truthful, ?_⟩, objects, ?_⟩
  · show cache.Mirrors connection.contents
    rw [Bucket.contents_of_objects objects, Bucket.contents_adding]
    exact mirrors
  · exact ⟨_, rfl, rfl, read, measured.symm⟩

private theorem put_of_failure (coherent : store.Coherent)
    (fails : reader.content = (content, some kind)) :
    Declines store.connection (.system kind) (store.put reader) := by
  obtain ⟨written, received⟩ := Cache.receive_of_failure coherent.mirrors.free fails
  unfold put putWhile
  rw [received]
  exact ⟨⟨coherent.truthful, coherent.mirrors.create_discard written⟩, rfl, rfl⟩

/-- What the bucket holds is given, whether it is cached or fetched. -/
theorem get_of_some (coherent : store.Coherent)
    (present : store.connection.contents fingerprint = some content) :
    Serves store.connection fingerprint content (store.get fingerprint) := by
  rcases found : store.cache.get? fingerprint with ⟨_ | entry, cache⟩
  · -- The content is fetched, and hashes to the fingerprint.
    obtain rfl := Cache.get?_none found
    have hashed := coherent.truthful.hashed fingerprint content present
    have fetched : Remote.get fingerprint.text store.connection = _ :=
      Bucket.get_contents coherent.truthful.calm fingerprint
    rw [present] at fetched
    have presentHashed := present
    rw [← hashed] at presentHashed
    obtain ⟨entry, after, accepted, mirrors, member, named⟩ :=
      accept_of_mirrors coherent.mirrors presentHashed
    rw [hashed] at accepted named
    have done : store.get fingerprint = (.ok (store.binaryOf fingerprint entry),
        { store with
          cache := after
          connection := store.connection.noting .get fingerprint.text }) := by
      unfold Store.get
      simp only [found, fetched, accepted]
    have coherentAfter : Coherent { store with
        cache := after
        connection := store.connection.noting .get fingerprint.text } :=
      ⟨coherent.truthful.noting _ _, mirrors⟩
    rw [done]
    refine ⟨coherentAfter, rfl, _, rfl, rfl, ?_⟩
    apply coherentAfter.read member
    show store.connection.contents entry.fingerprint = some content
    rw [named]
    exact present
  · obtain ⟨mirrors, member, named⟩ := coherent.mirrors.get?_some found
    have done : store.get fingerprint = (.ok (store.binaryOf fingerprint entry),
        { store with cache := cache }) := by
      unfold Store.get
      simp only [found]
    have coherentAfter : Coherent { store with cache := cache } := ⟨coherent.truthful, mirrors⟩
    rw [done]
    refine ⟨coherentAfter, rfl, _, rfl, rfl, ?_⟩
    apply coherentAfter.read member
    show store.connection.contents entry.fingerprint = some content
    rw [named]
    exact present

/-- What the bucket does not hold is not cached either. -/
theorem get_of_none (coherent : store.Coherent)
    (absent : store.connection.contents fingerprint = none) :
    Declines store.connection (.notFound fingerprint.text) (store.get fingerprint) := by
  rcases found : store.cache.get? fingerprint with ⟨_ | entry, cache⟩
  · obtain rfl := Cache.get?_none found
    have fetched : Remote.get fingerprint.text store.connection = _ :=
      Bucket.get_contents coherent.truthful.calm fingerprint
    rw [absent] at fetched
    unfold Store.get
    simp only [found, fetched]
    exact ⟨⟨coherent.truthful.noting _ _, coherent.mirrors.create_discard []⟩, rfl, rfl⟩
  · obtain ⟨mirrors, member, named⟩ := coherent.mirrors.get?_some found
    obtain ⟨content, _, _, held⟩ := mirrors.read member
    rw [named, absent] at held
    exact absurd held (by simp)

private theorem length (coherent : store.Coherent) (fingerprint : Fingerprint) :
    (store.length fingerprint).1 =
        .ok ((store.connection.contents fingerprint).elim 0 List.length) ∧
      (store.length fingerprint).2.connection =
        store.connection.noting .head fingerprint.text := by
  have asked : Remote.head fingerprint.text store.connection = _ :=
    coherent.truthful.head fingerprint
  unfold Store.length
  rw [asked]
  cases store.connection.contents fingerprint <;> exact ⟨rfl, rfl⟩

end Coherent

/-! ## Uses of a store -/

/-- What callers do who put and get: they also clone and drop the binaries that
they have. -/
inductive Use where
  | ask (call : Call)
  | clone (binary : Binary)
  | drop (binary : Binary)

namespace Use

def operation : Use → Operation
  | .ask (.put reader) => .put reader
  | .ask (.get fingerprint) => .get fingerprint
  | .ask (.length fingerprint) => .length fingerprint
  | .clone binary => .clone binary
  | .drop binary => .drop binary

def step (use : Use) : Step Bucket :=
  .act use.operation

def asked? : Use → Option Call
  | .ask call => some call
  | _ => none

end Use

/-- What can be learnt from what a call gave. -/
def shown (result : Except StoreError Binary × Store Bucket) : Answer :=
  match result with
  | (.ok binary, after) => .binary binary.fingerprint (after.read binary) binary.length
  | (.error cause, _) => .failure cause

private theorem Serves.shown {bucket : Bucket} {result : Except StoreError Binary × Store Bucket}
    (serves : Serves bucket fingerprint content result) :
    shown result = .binary fingerprint (.ok content) content.length := by
  obtain ⟨outcome, after⟩ := result
  obtain ⟨binary, given, named, read, measured⟩ := serves.given
  obtain rfl : outcome = .ok binary := given
  show Answer.binary binary.fingerprint (after.read binary) binary.length = _
  rw [named, read, measured]

private theorem Declines.shown {bucket : Bucket} {cause : StoreError}
    {result : Except StoreError Binary × Store Bucket}
    (declines : Declines bucket cause result) : shown result = .failure cause := by
  obtain ⟨outcome, after⟩ := result
  obtain rfl : outcome = .error cause := declines.refused
  rfl

/-- What a store gives. -/
def answer (store : Store Bucket) : Call → Answer
  | .put reader => shown (store.put reader)
  | .get fingerprint => shown (store.get fingerprint)
  | .length fingerprint =>
    match (store.length fingerprint).1 with
    | .ok length => .length length
    | .error cause => .failure cause

namespace Usage

variable {usage : Usage Bucket} {bucket : Bucket} {fingerprint : Fingerprint} {content : Bytes}
  {result : Except StoreError Binary × Store Bucket}

/-- What the calls among some uses are given, one after the other. -/
def answers : List Use → Usage Bucket → List Answer
  | [], _ => []
  | use :: rest, usage =>
    (use.asked?.map usage.store.answer).toList ++ answers rest (usage.step use.step)

/-- The store is coherent, and its cache backs the binaries in hand. -/
structure Coherent (usage : Usage Bucket) : Prop extends Genuine usage where
  store : usage.store.Coherent

private theorem coherent_first (repository : String) (budget : Nat) (truthful : bucket.Truthful) :
    (first repository budget bucket).Coherent :=
  ⟨genuine_first repository budget bucket, coherent_overRemote repository budget truthful⟩

private theorem coherent_take (genuine : (usage.take result).Genuine) (after : result.2.Coherent) :
    (usage.take result).Coherent := by
  refine ⟨genuine, ?_⟩
  obtain ⟨outcome, store⟩ := result
  cases outcome <;> exact after

/-- What one use of a coherent store makes of it and of its bucket, and what the
use is given. -/
structure Agrees (use : Use) (usage : Usage Bucket) : Prop where
  coherent : (usage.step use.step).Coherent
  answer : ∀ call, use.asked? = some call →
    usage.store.answer call = call.answer usage.store.connection.contents
  objects : (usage.step use.step).store.connection.objects =
    (use.asked?.elim usage.store.connection (Call.settle usage.store.connection)).objects

private theorem agrees_put (coherent : usage.Coherent) (reader : Reader)
    (alone : ∀ content, (Call.put reader).added? = some content → ∀ held,
      usage.store.connection.contents (Fingerprint.ofContent content) = some held →
        held = content) :
    Agrees (.ask (.put reader)) usage := by
  have genuine := coherent.toGenuine.perform (.put reader)
  rcases yields : reader.content with ⟨content, _ | kind⟩
  · have adds : (Call.put reader).added? = some content := by
      simp only [Call.added?, yields]
    have serves := coherent.store.put_of_content yields (alone content adds)
    refine ⟨coherent_take genuine serves.coherent, ?_, ?_⟩
    · rintro call ⟨⟩
      simp only [Store.answer, Call.answer, yields]
      exact serves.shown
    · show (usage.take (usage.store.put reader)).store.connection.objects =
        (Call.settle usage.store.connection (.put reader)).objects
      unfold Call.settle
      rw [take_connection, serves.objects, adds]
      rfl
  · have adds : (Call.put reader).added? = none := by
      simp only [Call.added?, yields]
    have declines := coherent.store.put_of_failure yields
    refine ⟨coherent_take genuine declines.coherent, ?_, ?_⟩
    · rintro call ⟨⟩
      simp only [Store.answer, Call.answer, yields]
      exact declines.shown
    · show (usage.take (usage.store.put reader)).store.connection.objects =
        (Call.settle usage.store.connection (.put reader)).objects
      unfold Call.settle
      rw [take_connection, declines.objects, adds]
      rfl

private theorem agrees_get (coherent : usage.Coherent) (fingerprint : Fingerprint) :
    Agrees (.ask (.get fingerprint)) usage := by
  have genuine := coherent.toGenuine.perform (.get fingerprint)
  cases present : usage.store.connection.contents fingerprint with
  | some content =>
    have serves := coherent.store.get_of_some present
    refine ⟨coherent_take genuine serves.coherent, ?_, ?_⟩
    · rintro call ⟨⟩
      simp only [Store.answer, Call.answer, present]
      exact serves.shown
    · show (usage.take (usage.store.get fingerprint)).store.connection.objects =
        usage.store.connection.objects
      rw [take_connection, serves.objects]
  | none =>
    have declines := coherent.store.get_of_none present
    refine ⟨coherent_take genuine declines.coherent, ?_, ?_⟩
    · rintro call ⟨⟩
      simp only [Store.answer, Call.answer, present]
      exact declines.shown
    · show (usage.take (usage.store.get fingerprint)).store.connection.objects =
        usage.store.connection.objects
      rw [take_connection, declines.objects]

private theorem agrees_length (coherent : usage.Coherent) (fingerprint : Fingerprint) :
    Agrees (.ask (.length fingerprint)) usage := by
  obtain ⟨answered, noted⟩ := coherent.store.length fingerprint
  refine ⟨⟨coherent.toGenuine.perform (.length fingerprint), ?_⟩, ?_, ?_⟩
  · show (usage.store.length fingerprint).2.Coherent
    refine ⟨?_, ?_⟩
    · rw [noted]
      exact coherent.store.truthful.noting _ _
    · rw [noted]
      exact coherent.store.mirrors
  · rintro call ⟨⟩
    simp only [Store.answer, Call.answer, answered]
  · show (usage.store.length fingerprint).2.connection.objects = _
    rw [noted]
    rfl

/-- Whoever clones or drops a binary learns nothing and changes nothing in the
bucket. -/
theorem agrees_clone (coherent : usage.Coherent) (binary : Binary) :
    Agrees (.clone binary) usage := by
  have genuine := coherent.toGenuine.perform (.clone binary)
  refine ⟨⟨genuine, ?_⟩, by simp [Use.asked?], ?_⟩
  · show (usage.perform (.clone binary)).store.Coherent
    simp only [perform]
    split
    · rename_i member
      refine ⟨coherent.store.truthful, coherent.store.mirrors.hold ?_⟩
      apply coherent.backs.genuine.pinned
      exact coherent.backs.handles.mem_iff.mpr (List.mem_map_of_mem member)
    · exact coherent.store
  · show (usage.perform (.clone binary)).store.connection.objects = _
    simp only [perform]
    split <;> rfl

private theorem agrees_drop (coherent : usage.Coherent) (binary : Binary) :
    Agrees (.drop binary) usage := by
  have genuine := coherent.toGenuine.perform (.drop binary)
  refine ⟨⟨genuine, ?_⟩, by simp [Use.asked?], ?_⟩
  · show (usage.perform (.drop binary)).store.Coherent
    simp only [perform]
    split
    · exact ⟨coherent.store.truthful, coherent.store.mirrors.release binary.entry⟩
    · exact coherent.store
  · show (usage.perform (.drop binary)).store.connection.objects = _
    simp only [perform]
    split <;> rfl

private theorem agrees (coherent : usage.Coherent) {use : Use} {rest : List Use}
    (distinct : Distinct usage.store.connection.contents ((use :: rest).filterMap Use.asked?)) :
    Agrees use usage := by
  cases use with
  | clone binary => exact agrees_clone coherent binary
  | drop binary => exact agrees_drop coherent binary
  | ask call =>
    cases call with
    | get fingerprint => exact agrees_get coherent fingerprint
    | length fingerprint => exact agrees_length coherent fingerprint
    | put reader =>
      apply agrees_put coherent
      intro content adds held present
      have hashed := coherent.store.truthful.hashed _ held present
      exact distinct held content (.held _ present) (.added _ List.mem_cons_self adds) hashed

/-- The answers and the bucket of a run depend on its calls alone. -/
theorem run_agrees (coherent : usage.Coherent) (uses : List Use)
    (distinct : Distinct usage.store.connection.contents (uses.filterMap Use.asked?)) :
    answers uses usage =
        plainAnswers (uses.filterMap Use.asked?) usage.store.connection.contents ∧
      (run (uses.map Use.step) usage).Coherent ∧
      (run (uses.map Use.step) usage).store.connection.objects =
        ((uses.filterMap Use.asked?).foldl Call.settle usage.store.connection).objects := by
  induction uses generalizing usage with
  | nil => exact ⟨rfl, coherent, rfl⟩
  | cons use rest inductionHypothesis =>
    obtain ⟨coherentAfter, answered, objects⟩ := agrees coherent distinct
    have contents := Bucket.contents_of_objects objects
    cases called : use.asked? with
    | none =>
      rw [called] at objects contents
      rw [List.filterMap_cons_none called] at distinct ⊢
      have distinctAfter := distinct
      rw [← show _ = usage.store.connection.contents from contents] at distinctAfter
      obtain ⟨sameAnswers, coherentEnd, sameObjects⟩ :=
        inductionHypothesis coherentAfter distinctAfter
      refine ⟨?_, coherentEnd, ?_⟩
      · rw [answers, called, sameAnswers, contents]
        rfl
      · exact sameObjects.trans (Call.objects_foldl_settle _ objects)
    | some call =>
      rw [called] at objects contents
      rw [List.filterMap_cons_some called] at distinct ⊢
      have settled := contents.trans (call.contents_settle usage.store.connection)
      have distinctAfter := distinct.after
      rw [← settled] at distinctAfter
      obtain ⟨sameAnswers, coherentEnd, sameObjects⟩ :=
        inductionHypothesis coherentAfter distinctAfter
      refine ⟨?_, coherentEnd, ?_⟩
      · rw [answers, called, sameAnswers, settled]
        simp only [Option.map_some, answered call called]
        rfl
      · exact sameObjects.trans (Call.objects_foldl_settle _ objects)

/-- Over a truthful bucket a cache does not show.  Whatever its budget, and
whichever binaries are cloned and dropped meanwhile, the calls of a run are given
what a plain map would give, and the bucket becomes what the map becomes; every
binary in hand reads as the map says; and another run with the same calls, over
another budget and with other binaries in hand, is given the same and leaves the
same objects. -/
theorem cache_is_transparent (repository : String) (budget : Nat) (bucket : Bucket)
    (truthful : bucket.Truthful) (uses : List Use)
    (distinct : Distinct bucket.contents (uses.filterMap Use.asked?)) (usage : Usage Bucket)
    (reached : run (uses.map Use.step) (first repository budget bucket) = usage) :
    answers uses (first repository budget bucket) =
        plainAnswers (uses.filterMap Use.asked?) bucket.contents ∧
    usage.store.connection.contents =
        (uses.filterMap Use.asked?).foldl Call.after bucket.contents ∧
    (∀ binary ∈ usage.hands, ∃ content, usage.store.read binary = .ok content ∧
      usage.store.connection.contents binary.fingerprint = some content) ∧
    ∀ otherRepository otherBudget otherUses,
      otherUses.filterMap Use.asked? = uses.filterMap Use.asked? →
        answers otherUses (first otherRepository otherBudget bucket) =
            answers uses (first repository budget bucket) ∧
          (run (otherUses.map Use.step)
            (first otherRepository otherBudget bucket)).store.connection.objects =
              usage.store.connection.objects := by
  have coherentFirst := coherent_first repository budget truthful
  obtain ⟨sameAnswers, coherent, objects⟩ := run_agrees coherentFirst uses distinct
  rw [reached] at coherent objects
  refine ⟨sameAnswers, ?_, ?_, ?_⟩
  · rw [Bucket.contents_of_objects objects]
    exact Call.contents_foldl_settle _ bucket
  · intro binary member
    have held := coherent.backs.handles.mem_iff.mpr (List.mem_map_of_mem member)
    obtain ⟨content, read, _, present⟩ :=
      coherent.store.mirrors.read (coherent.backs.genuine.pinned _ held)
    rw [coherent.backs.named binary member] at present
    exact ⟨content, read, present⟩
  · intro otherRepository otherBudget otherUses sameCalls
    have coherentOther := coherent_first otherRepository otherBudget truthful
    have distinctOther := distinct
    rw [← sameCalls] at distinctOther
    obtain ⟨otherAnswers, _, otherObjects⟩ := run_agrees coherentOther otherUses distinctOther
    rw [sameCalls] at otherAnswers otherObjects
    exact ⟨otherAnswers.trans sameAnswers.symm, otherObjects.trans objects.symm⟩

/-! ### A cache that holds nothing for long -/

def stockedBucket : Bucket :=
  (Bucket.empty "").insert (Fingerprint.ofContent [1]).text (Bucket.objectOf [1])

/-- A binary that is put is dropped, so that the next one takes its place in the
cache; then it is fetched again. -/
def uncachedUses : List Use :=
  [.ask (.put (Reader.ofContent [2])),
    .drop ⟨⟨0, Fingerprint.ofContent [2], 1⟩, Fingerprint.ofContent [2], ""⟩,
    .ask (.get (Fingerprint.ofContent [1])),
    .ask (.get (Fingerprint.ofContent [2])),
    .ask (.length (Fingerprint.ofContent [3]))]

/-- The same calls, while all binaries are kept. -/
def cachedUses : List Use :=
  [.ask (.put (Reader.ofContent [2])), .ask (.get (Fingerprint.ofContent [1])),
    .ask (.get (Fingerprint.ofContent [2])), .ask (.length (Fingerprint.ofContent [3]))]

/-- What is fetched again is what was put, and a large cache would show no
difference. -/
theorem evicted_contents_are_fetched_again :
    answers uncachedUses (first "" 0 stockedBucket) =
        [.binary (Fingerprint.ofContent [2]) (.ok [2]) 1,
          .binary (Fingerprint.ofContent [1]) (.ok [1]) 1,
          .binary (Fingerprint.ofContent [2]) (.ok [2]) 1, .length 0] ∧
      answers cachedUses (first "" 9 stockedBucket) =
        answers uncachedUses (first "" 0 stockedBucket) := by
  have truthful : stockedBucket.Truthful := (Bucket.truthful_empty "").insert [1]
  have apart : Fingerprint.ofContent [1] ≠ Fingerprint.ofContent [2] := by decide +kernel
  have occurring : ∀ content,
      Occurs stockedBucket.contents (uncachedUses.filterMap Use.asked?) content →
        content = [1] ∨ content = [2] := by
    rintro content (⟨fingerprint, present⟩ | ⟨call, asked, adds⟩)
    · have stocked := Bucket.contents_insert (Bucket.empty "") [1]
      rw [show stockedBucket.contents = _ from stocked] at present
      by_cases same : fingerprint = Fingerprint.ofContent [1]
      · rw [same, Function.update_self] at present
        exact Or.inl (Option.some.inj present).symm
      · rw [Function.update_of_ne same] at present
        exact absurd present (by simp [Bucket.contents, Bucket.find?, Bucket.listed?, Bucket.empty])
    · simp only [uncachedUses, List.filterMap_cons, Use.asked?, List.filterMap_nil,
        List.mem_cons, List.not_mem_nil, or_false] at asked
      rcases asked with rfl | rfl | rfl | rfl
      · exact Or.inr (Option.some.inj adds).symm
      · exact absurd adds (by simp [Call.added?])
      · exact absurd adds (by simp [Call.added?])
      · exact absurd adds (by simp [Call.added?])
  have distinct : Distinct stockedBucket.contents (uncachedUses.filterMap Use.asked?) := by
    intro left right leftOccurs rightOccurs same
    rcases occurring left leftOccurs with rfl | rfl <;>
      rcases occurring right rightOccurs with rfl | rfl
    · rfl
    · exact absurd same apart
    · exact absurd same.symm apart
    · rfl
  obtain ⟨answered, _, _, others⟩ :=
    cache_is_transparent "" 0 stockedBucket truthful uncachedUses distinct _ rfl
  refine ⟨?_, (others "" 9 cachedUses rfl).1⟩
  rw [answered]
  decide +kernel

end Usage

end ContentStore.Store
