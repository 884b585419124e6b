import Mathlib.Data.Finset.Card
import ContentStore.Proofs.Store.Transparency

/-!
Contract: which contents are uploaded, and when.

Owns:
- `Use.Calls`, what one use of a store makes of a bucket without faults, and that
  every use does so, whatever is cached;
- `Bucket.missing`, the fingerprints among some that a bucket does not hold, and
  `Bucket.Follows`, by which a bucket has been given them and nothing else;
- that every fingerprint which is put is uploaded once, by the first put of it, unless
  the bucket held it from the start.

Neither need contents have different fingerprints for this, nor need the bucket be
truthful about what it held at the start.

Does not own: removals, and buckets with faults.
-/

namespace ContentStore

/-! ## The first occurrences in a list -/

section FirstOccurrences

variable {Element : Type} [DecidableEq Element]

private theorem eraseDups_concat (elements : List Element) (element : Element) :
    (elements ++ [element]).eraseDups =
      if element ∈ elements then elements.eraseDups else elements.eraseDups ++ [element] := by
  rw [List.eraseDups_append]
  by_cases member : element ∈ elements <;>
  simp [List.removeAll, member, List.eraseDups_cons]

private theorem nodup_eraseDups (elements : List Element) : elements.eraseDups.Nodup := by
  induction elements using List.reverseRecOn with
  | nil => exact List.nodup_nil
  | append_singleton elements element inductionHypothesis =>
    rw [eraseDups_concat]
    split
    · exact inductionHypothesis
    · rename_i absent
      apply List.Nodup.append inductionHypothesis (List.nodup_singleton element)
      rw [List.disjoint_singleton, List.mem_eraseDups]
      exact absent

private theorem length_eraseDups (elements : List Element) :
    elements.eraseDups.length = elements.toFinset.card := by
  rw [← List.toFinset_card_of_nodup (nodup_eraseDups elements)]
  congr 1
  ext element
  simp only [List.mem_toFinset, List.mem_eraseDups]

end FirstOccurrences

/-! ## Buckets that are offered contents -/

namespace Bucket

variable {bucket start now after : Bucket} {content : Bytes} {fingerprint : Fingerprint}
  {key : String} {object : StoredObject} {verb : Verb} {puts : List Fingerprint}

/-- The keys under which objects were put, earliest first. -/
def uploads (calls : List (Verb × String)) : List String :=
  (calls.filter fun call => call.1 = .put).map Prod.snd

private theorem uploads_append (earlier later : List (Verb × String)) :
    uploads (earlier ++ later) = uploads earlier ++ uploads later := by
  simp only [uploads, List.filter_append, List.map_append]

private theorem calls_offered (bucket : Bucket) (content : Bytes) :
    (bucket.offered content).calls =
      bucket.calls ++ (.head, (Fingerprint.ofContent content).text) ::
        if bucket.contents (Fingerprint.ofContent content) = none then
          [(.put, (Fingerprint.ofContent content).text)]
        else [] := by
  unfold offered
  by_cases absent : bucket.contents (Fingerprint.ofContent content) = none
  · simp only [if_pos absent]
    exact List.append_assoc bucket.calls [_] [_]
  · simp only [if_neg absent]
    rfl

private theorem contents_offered (bucket : Bucket) (content : Bytes) :
    (bucket.offered content).contents = bucket.contents.adding content := by
  rw [contents_of_objects (bucket.objects_offered content), contents_adding]

private theorem contents_eq_none_iff :
    bucket.contents fingerprint = none ↔ bucket.find? fingerprint.text = none :=
  Option.map_eq_none_iff

/-- A content that was not there becomes an object, and the others stay. -/
theorem find?_offered (absent : bucket.contents (Fingerprint.ofContent content) = none) :
    (bucket.offered content).find? =
      Function.update bucket.find? (Fingerprint.ofContent content).text
        (some (objectOf content)) := by
  unfold offered
  rw [if_pos absent]
  funext key
  by_cases same : key = (Fingerprint.ofContent content).text
  · rw [same, Function.update_self]
    exact find?_insert_self _ _ rfl
  · rw [Function.update_of_ne same]
    exact find?_insert_of_ne _ _ same

/-- A content that was there changes no object. -/
theorem objects_offered_of_present (present : bucket.contents (Fingerprint.ofContent content) ≠ none) :
    (bucket.offered content).objects = bucket.objects := by
  unfold offered
  rw [if_neg present]
  rfl

/-- What a bucket holds stays there, whatever it is offered. -/
theorem find?_offered_of_some (content : Bytes) (found : bucket.find? key = some object) :
    (bucket.offered content).find? key = some object := by
  by_cases absent : bucket.contents (Fingerprint.ofContent content) = none
  · rw [find?_offered absent, Function.update_of_ne]
    · exact found
    · rintro rfl
      rw [contents_eq_none_iff.mp absent] at found
      exact absurd found (by simp)
  · rw [find?_of_objects (objects_offered_of_present absent)]
    exact found

/-- The fingerprints that a bucket does not hold, each where it occurs first. -/
def missing (bucket : Bucket) (puts : List Fingerprint) : List Fingerprint :=
  (puts.filter fun fingerprint => bucket.contents fingerprint = none).eraseDups

private theorem missing_concat (bucket : Bucket) (puts : List Fingerprint)
    (fingerprint : Fingerprint) :
    bucket.missing (puts ++ [fingerprint]) =
      if bucket.contents fingerprint = none ∧ fingerprint ∉ puts then
        bucket.missing puts ++ [fingerprint]
      else bucket.missing puts := by
  unfold missing
  by_cases absent : bucket.contents fingerprint = none
  · have member : fingerprint ∈ puts.filter (fun other => bucket.contents other = none) ↔
        fingerprint ∈ puts := by
      simp only [List.mem_filter, absent, decide_true, and_true]
    rw [List.filter_append, List.filter_cons_of_pos (by simpa using absent), List.filter_nil,
      eraseDups_concat]
    by_cases before : fingerprint ∈ puts <;> simp only [member, absent, before] <;> simp
  · rw [List.filter_append, List.filter_cons_of_neg (by simpa using absent), List.filter_nil,
      List.append_nil, if_neg (fun both => absent both.1)]

/-- As many are missing as there are different ones that the bucket does not hold. -/
theorem length_missing (bucket : Bucket) (puts : List Fingerprint) :
    (bucket.missing puts).length =
      (puts.toFinset.filter fun fingerprint => bucket.contents fingerprint = none).card := by
  unfold missing
  rw [length_eraseDups, List.toFinset_filter]
  simp only [decide_eq_true_eq]

/-- A bucket has been given the fingerprints among some that it did not hold, once each
and in their order, and no others. -/
structure Follows (start : Bucket) (puts : List Fingerprint) (now : Bucket) : Prop where
  logged : ∃ made, now.calls = start.calls ++ made ∧
    uploads made = (start.missing puts).map Fingerprint.text
  held : ∀ fingerprint, now.contents fingerprint = none ↔
    start.contents fingerprint = none ∧ fingerprint ∉ puts
  kept : ∀ key object, start.find? key = some object → now.find? key = some object

namespace Follows

private theorem refl (bucket : Bucket) : bucket.Follows [] bucket where
  logged := ⟨[], (List.append_nil _).symm, rfl⟩
  held := by simp
  kept := fun _ _ found => found

private theorem noting (follows : start.Follows puts now) (other : verb ≠ .put) (key : String) :
    start.Follows puts (now.noting verb key) where
  logged := by
    obtain ⟨made, calls, uploaded⟩ := follows.logged
    refine ⟨made ++ [(verb, key)], ?_, ?_⟩
    · rw [← List.append_assoc, ← calls]
      rfl
    · have none_more : uploads [(verb, key)] = [] := by simp [uploads, other]
      rw [uploads_append, none_more, List.append_nil, uploaded]
  held := follows.held
  kept := follows.kept

private theorem offered (follows : start.Follows puts now) (content : Bytes) :
    start.Follows (puts ++ [Fingerprint.ofContent content]) (now.offered content) where
  logged := by
    obtain ⟨made, calls, uploaded⟩ := follows.logged
    refine ⟨_, by rw [calls_offered, calls, List.append_assoc], ?_⟩
    rw [uploads_append, uploaded, missing_concat]
    -- The bucket holds now what it held at the start and what has been put since.
    by_cases absent : now.contents (Fingerprint.ofContent content) = none
    · rw [if_pos absent, if_pos ((follows.held _).mp absent), List.map_append]
      rfl
    · rw [if_neg absent, if_neg fun both => absent ((follows.held _).mpr both)]
      exact List.append_nil _
  held := by
    intro fingerprint
    rw [contents_offered, ← not_iff_not, ← ne_eq, Contents.adding_ne_none_iff, ne_eq,
      follows.held]
    simp only [List.mem_append, List.mem_singleton]
    tauto
  kept := fun key object found => find?_offered_of_some content (follows.kept key object found)

end Follows

end Bucket

/-! ## What a use makes of the bucket -/

namespace Store

variable {store : Store Bucket} {reader : Reader} {content : Bytes} {kind : IoKind}

/-- A content that is put is offered to the bucket, as what the cache has under its
fingerprint. -/
theorem put_of_free (genuine : store.cache.Genuine) (free : store.cache.folder.Free)
    (calm : store.connection.faults = []) (yields : reader.content = (content, none)) :
    ∃ entry cache stored, Fingerprint.ofContent stored = Fingerprint.ofContent content ∧
      cache.folder.Free ∧
      store.put reader = (.ok (store.binaryOf (Fingerprint.ofContent content) entry),
        { store with cache := cache, connection := store.connection.offered stored }) := by
  have file : (store.cache.folder.create content).2.item? (store.cache.folder.create content).1 =
      some (.file content) := Folder.item?_set_self _ _ _
  have freeCreated : { store.cache with folder := (store.cache.folder.create content).2 }.folder.Free :=
    free.create content
  obtain ⟨entry, cache, inserted, freeAfter⟩ :=
    Cache.insert_of_free freeCreated file (Fingerprint.ofContent content)
  have gives := genuine.insert_created content
  rw [inserted] at gives
  obtain ⟨named, held⟩ := gives.given entry rfl
  have member : entry ∈ cache.entries := by
    apply gives.genuine.pinned
    rw [held]
    exact List.mem_cons_self
  obtain ⟨stored, read, hashed, _⟩ := gives.genuine.read member
  have uploaded := upload_of_calm calm stored
  rw [hashed, named] at uploaded
  refine ⟨entry, cache, stored, hashed.trans named, freeAfter, ?_⟩
  unfold put putWhile
  simp only [Cache.receive_of_content free yields, inserted, read, uploaded]

/-- A reader that fails is not put, and the bucket is not called. -/
theorem put_of_unreadable (free : store.cache.folder.Free)
    (fails : reader.content = (content, some kind)) :
    (store.put reader).2.cache.folder.Free ∧
      (store.put reader).2.connection = store.connection := by
  obtain ⟨written, received⟩ := Cache.receive_of_failure free fails
  unfold put putWhile
  rw [received]
  exact ⟨(free.create written).discard _, rfl⟩

/-- A download is accepted or discarded. -/
theorem free_accept {cache : Cache} (free : cache.folder.Free) (fingerprint : Fingerprint)
    (content : Bytes) : (accept fingerprint content cache).2.folder.Free := by
  have file : (cache.folder.create content).2.item? (cache.folder.create content).1 =
      some (.file content) := Folder.item?_set_self _ _ _
  have freeCreated : { cache with folder := (cache.folder.create content).2 }.folder.Free :=
    free.create content
  obtain ⟨entry, after, inserted, freeAfter⟩ := Cache.insert_of_free freeCreated file fingerprint
  unfold accept
  by_cases hashed : Fingerprint.ofContent content = fingerprint
  · simp only [if_pos hashed, inserted]
    exact freeAfter
  · simp only [if_neg hashed]
    exact (free.create content).discard _

/-- A get at most asks the bucket for the object. -/
theorem get_of_free (free : store.cache.folder.Free) (calm : store.connection.faults = [])
    (fingerprint : Fingerprint) :
    (store.get fingerprint).2.cache.folder.Free ∧
      ((store.get fingerprint).2.connection = store.connection ∨
        (store.get fingerprint).2.connection =
          store.connection.noting .get fingerprint.text) := by
  have sent : (Remote.get fingerprint.text store.connection).2 =
      store.connection.noting .get fingerprint.text := by
    show (Bucket.get fingerprint.text store.connection).2 = _
    rw [Bucket.get_of_calm calm]
  cases found : store.cache.find? fingerprint with
  | some entry =>
    unfold Store.get
    rw [Cache.get?_of_cached found]
    exact ⟨free, Or.inl rfl⟩
  | none =>
    simp only [Store.get, Cache.get?_of_absent found]
    split <;> rename_i done <;> rw [done] at sent
    · exact ⟨(free.create _).discard _, Or.inr sent⟩
    · rename_i written _
      have accepted := free_accept free fingerprint written
      split <;> rename_i outcome <;> rw [outcome] at accepted <;> exact ⟨accepted, Or.inr sent⟩

/-- The fingerprint that a use puts, if it puts one. -/
def Use.puts? (use : Use) : Option Fingerprint :=
  (use.asked?.bind Call.added?).map Fingerprint.ofContent

/-- What a use makes of a bucket without faults: a put of a content offers one with its
fingerprint, and any other use makes at most one call, which puts nothing. -/
def Use.Calls (use : Use) (now after : Bucket) : Prop :=
  match use.puts? with
  | some fingerprint =>
    ∃ stored, Fingerprint.ofContent stored = fingerprint ∧ after = now.offered stored
  | none => after = now ∨ ∃ verb key, verb ≠ .put ∧ after = now.noting verb key

private theorem Use.Calls.faults {use : Use} {now after : Bucket} (calls : use.Calls now after) :
    after.faults = now.faults := by
  unfold Use.Calls at calls
  split at calls
  · obtain ⟨stored, _, rfl⟩ := calls
    exact now.faults_offered stored
  · rcases calls with rfl | ⟨verb, key, _, rfl⟩ <;> rfl

/-- What has been put grows by what a use puts. -/
theorem Use.Calls.follows {use : Use} {start now after : Bucket} {puts : List Fingerprint}
    (calls : use.Calls now after) (follows : start.Follows puts now) :
    start.Follows (puts ++ use.puts?.toList) after := by
  unfold Use.Calls at calls
  split at calls <;> rename_i told <;> rw [told]
  · obtain ⟨stored, rfl, rfl⟩ := calls
    exact follows.offered stored
  · rw [Option.toList_none, List.append_nil]
    rcases calls with rfl | ⟨verb, key, other, rfl⟩
    · exact follows
    · exact follows.noting other key

namespace Usage

variable {usage : Usage Bucket}

/-- A store whose folder nobody else changes and refuses nothing, over a bucket without
faults. -/
structure Undisturbed (usage : Usage Bucket) : Prop where
  genuine : usage.Genuine
  free : usage.store.cache.folder.Free
  calm : usage.store.connection.faults = []

private theorem undisturbed_first (repository : String) (budget : Nat) {bucket : Bucket}
    (calm : bucket.faults = []) : (first repository budget bucket).Undisturbed :=
  ⟨genuine_first repository budget bucket, Folder.Free.empty, calm⟩

/-- Every use of an undisturbed store calls the bucket as told, and leaves the folder
free. -/
theorem step_calls (undisturbed : usage.Undisturbed) (use : Use) :
    (usage.step use.step).store.cache.folder.Free ∧
      use.Calls usage.store.connection (usage.step use.step).store.connection := by
  obtain ⟨genuine, free, calm⟩ := undisturbed
  cases use with
  | ask call =>
    cases call with
    | put reader =>
      show (usage.take (usage.store.put reader)).store.cache.folder.Free ∧
        (Use.ask (.put reader)).Calls _ (usage.take (usage.store.put reader)).store.connection
      rw [cache_take, take_connection]
      rcases yields : reader.content with ⟨content, _ | kind⟩
      · obtain ⟨entry, cache, stored, hashed, freeAfter, done⟩ :=
          put_of_free genuine.backs.genuine free calm yields
        rw [done]
        refine ⟨freeAfter, ?_⟩
        simp only [Use.Calls, Use.puts?, Use.asked?, Option.bind_some, Call.added?, yields,
          Option.map_some]
        exact ⟨stored, hashed, rfl⟩
      · obtain ⟨freeAfter, same⟩ := put_of_unreadable free yields
        refine ⟨freeAfter, ?_⟩
        simp only [Use.Calls, Use.puts?, Use.asked?, Option.bind_some, Call.added?, yields,
          Option.map_none]
        exact Or.inl same
    | get fingerprint =>
      show (usage.take (usage.store.get fingerprint)).store.cache.folder.Free ∧
        (Use.ask (.get fingerprint)).Calls _
          (usage.take (usage.store.get fingerprint)).store.connection
      rw [cache_take, take_connection]
      obtain ⟨freeAfter, same | noted⟩ := get_of_free free calm fingerprint
      · exact ⟨freeAfter, Or.inl same⟩
      · exact ⟨freeAfter, Or.inr ⟨_, _, by simp, noted⟩⟩
    | length fingerprint =>
      have asked : (Remote.head fingerprint.text usage.store.connection).2 = _ :=
        congrArg Prod.snd (Bucket.head_of_calm calm fingerprint.text)
      exact ⟨free, Or.inr ⟨_, _, by simp, asked⟩⟩
  | clone binary =>
    show (usage.perform (.clone binary)).store.cache.folder.Free ∧
      (Use.clone binary).Calls _ (usage.perform (.clone binary)).store.connection
    simp only [perform]
    split <;> exact ⟨free, Or.inl rfl⟩
  | drop binary =>
    show (usage.perform (.drop binary)).store.cache.folder.Free ∧
      (Use.drop binary).Calls _ (usage.perform (.drop binary)).store.connection
    simp only [perform]
    split <;> exact ⟨free, Or.inl rfl⟩

private theorem Undisturbed.step (undisturbed : usage.Undisturbed) (use : Use) :
    (usage.step use.step).Undisturbed := by
  obtain ⟨freeAfter, calls⟩ := step_calls undisturbed use
  exact ⟨undisturbed.genuine.perform use.operation, freeAfter,
    calls.faults.trans undisturbed.calm⟩

/-- What has been put after some uses is what was put before, and what they put. -/
theorem follows_run {start : Bucket} {puts : List Fingerprint} (undisturbed : usage.Undisturbed)
    (follows : start.Follows puts usage.store.connection) (uses : List Use) :
    (run (uses.map Use.step) usage).Undisturbed ∧
      start.Follows (puts ++ uses.filterMap Use.puts?)
        (run (uses.map Use.step) usage).store.connection := by
  induction uses generalizing usage puts with
  | nil => exact ⟨undisturbed, by rw [List.filterMap_nil, List.append_nil]; exact follows⟩
  | cons use rest inductionHypothesis =>
    obtain ⟨_, calls⟩ := step_calls undisturbed use
    obtain ⟨undisturbedEnd, followsEnd⟩ :=
      inductionHypothesis (undisturbed.step use) (calls.follows follows)
    refine ⟨undisturbedEnd, ?_⟩
    have split : (use :: rest).filterMap Use.puts? =
        use.puts?.toList ++ rest.filterMap Use.puts? := by
      rw [List.filterMap_cons]
      cases use.puts? <;> rfl
    rw [split, ← List.append_assoc]
    exact followsEnd

/-- Whatever the budget of the cache, and whatever is evicted meanwhile: over a bucket
without faults the uploads of a run are the fingerprints that were put and that the
bucket did not hold at the start, once each and in their order; every object that it
held is there still.  The next put of a content is given a binary, and asks the bucket
once, for the fingerprint of the content: it uploads an object that hashes to this
fingerprint if neither the bucket held it at the start nor was it put before, and nothing
otherwise.  A reader that fails is not put, and no call is made. -/
theorem uploads_happen_once (repository : String) (budget : Nat) (bucket : Bucket)
    (calm : bucket.faults = []) (uses : List Use) (usage : Usage Bucket)
    (reached : run (uses.map Use.step) (first repository budget bucket) = usage) :
    (∃ made, usage.store.connection.calls = bucket.calls ++ made ∧
      Bucket.uploads made =
        (bucket.missing (uses.filterMap Use.puts?)).map Fingerprint.text ∧
      (Bucket.uploads made).length = ((uses.filterMap Use.puts?).toFinset.filter
        fun fingerprint => bucket.contents fingerprint = none).card) ∧
    (∀ key object, bucket.find? key = some object →
      usage.store.connection.find? key = some object) ∧
    (∀ reader content, reader.content = (content, none) → ∃ binary after stored,
      usage.store.put reader = (.ok binary, after) ∧
      binary.fingerprint = Fingerprint.ofContent content ∧
      Fingerprint.ofContent stored = Fingerprint.ofContent content ∧
      (bucket.contents (Fingerprint.ofContent content) = none ∧
          Fingerprint.ofContent content ∉ uses.filterMap Use.puts? →
        after.connection.calls = usage.store.connection.calls ++
            [(.head, (Fingerprint.ofContent content).text),
              (.put, (Fingerprint.ofContent content).text)] ∧
          usage.store.connection.find? (Fingerprint.ofContent content).text = none ∧
          after.connection.find? = Function.update usage.store.connection.find?
            (Fingerprint.ofContent content).text (some (Bucket.objectOf stored))) ∧
      (¬ (bucket.contents (Fingerprint.ofContent content) = none ∧
          Fingerprint.ofContent content ∉ uses.filterMap Use.puts?) →
        after.connection.calls = usage.store.connection.calls ++
            [(.head, (Fingerprint.ofContent content).text)] ∧
          after.connection.objects = usage.store.connection.objects)) ∧
    ∀ reader content kind, reader.content = (content, some kind) →
      (usage.store.put reader).2.connection = usage.store.connection := by
  obtain ⟨undisturbed, follows⟩ := follows_run (undisturbed_first repository budget calm)
    (Bucket.Follows.refl bucket) uses
  rw [reached, List.nil_append] at follows
  rw [reached] at undisturbed
  obtain ⟨genuine, free, calmNow⟩ := undisturbed
  obtain ⟨made, calls, uploaded⟩ := follows.logged
  refine ⟨⟨made, calls, uploaded, ?_⟩, follows.kept, ?_, ?_⟩
  · rw [uploaded, List.length_map, Bucket.length_missing]
  · intro reader content yields
    obtain ⟨entry, cache, stored, hashed, _, done⟩ :=
      put_of_free genuine.backs.genuine free calmNow yields
    have noted := Bucket.calls_offered usage.store.connection stored
    refine ⟨_, _, stored, done, rfl, hashed, ?_⟩
    rw [← hashed, ← follows.held]
    constructor
    · intro absent
      rw [if_pos absent] at noted
      exact ⟨noted, Bucket.contents_eq_none_iff.mp absent, Bucket.find?_offered absent⟩
    · intro present
      rw [if_neg present] at noted
      exact ⟨noted, Bucket.objects_offered_of_present present⟩
  · intro reader content kind fails
    exact (put_of_unreadable free fails).2

/-! ### A content that is evicted and put again -/

/-- Three contents are put and let go of, the second of which the bucket holds, and so
is the first one once more. -/
def repeatedUses : List Use :=
  [.ask (.put (Reader.ofContent [2])),
    .drop ⟨⟨0, Fingerprint.ofContent [2], 1⟩, Fingerprint.ofContent [2], ""⟩,
    .ask (.put (Reader.ofContent [1])),
    .drop ⟨⟨1, Fingerprint.ofContent [1], 1⟩, Fingerprint.ofContent [1], ""⟩,
    .ask (.put (Reader.ofContent [3])),
    .drop ⟨⟨2, Fingerprint.ofContent [3], 1⟩, Fingerprint.ofContent [3], ""⟩,
    .ask (.put (Reader.ofContent [2])),
    .drop ⟨⟨3, Fingerprint.ofContent [2], 1⟩, Fingerprint.ofContent [2], ""⟩]

/-- Nothing stays in the cache but the last content; two contents are uploaded, and
another put of the one that was evicted uploads nothing. -/
theorem evicted_contents_are_uploaded_once :
    let usage := run (repeatedUses.map Use.step) (first "" 0 stockedBucket)
    usage.store.cache.entries.map Entry.fingerprint = [Fingerprint.ofContent [2]] ∧
      Bucket.uploads usage.store.connection.calls =
        [(Fingerprint.ofContent [2]).text, (Fingerprint.ofContent [3]).text] ∧
      ∃ binary after, usage.store.put (Reader.ofContent [3]) = (.ok binary, after) ∧
        after.connection.calls =
          usage.store.connection.calls ++ [(.head, (Fingerprint.ofContent [3]).text)] := by
  have facts : ((run (repeatedUses.map Use.step)
        (first "" 0 stockedBucket)).store.cache.entries.map Entry.fingerprint =
          [Fingerprint.ofContent [2]] ∧
        stockedBucket.calls = [] ∧ stockedBucket.faults = []) ∧
      stockedBucket.missing (repeatedUses.filterMap Use.puts?) =
        [Fingerprint.ofContent [2], Fingerprint.ofContent [3]] ∧
      Fingerprint.ofContent [3] ∈ repeatedUses.filterMap Use.puts? := by
    decide +kernel
  obtain ⟨usage, reached⟩ :
      ∃ usage, run (repeatedUses.map Use.step) (first "" 0 stockedBucket) = usage := ⟨_, rfl⟩
  rw [reached] at facts ⊢
  obtain ⟨⟨entries, noCalls, calm⟩, missing, before⟩ := facts
  obtain ⟨⟨made, calls, uploaded, _⟩, _, puts, _⟩ :=
    uploads_happen_once "" 0 stockedBucket calm repeatedUses usage reached
  obtain ⟨binary, after, _, given, _, _, _, asked⟩ := puts (Reader.ofContent [3]) [3] rfl
  refine ⟨entries, ?_, binary, after, given, (asked fun both => both.2 before).1⟩
  rw [calls, noCalls, List.nil_append, uploaded, missing, List.map_cons, List.map_cons,
    List.map_nil]

end Usage

end Store

end ContentStore
