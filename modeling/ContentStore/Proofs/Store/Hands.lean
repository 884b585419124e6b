import ContentStore.Proofs.Store.Operations

/-!
Contract: the binaries that callers have in hand.

Owns:
- `Cache.Backs`, by which the handles that are held on a genuine cache are those
  of some binaries;
- that every binary in hand reads with its fingerprint and length;
- what taking, cloning and letting go of a binary make of the binaries in hand,
  and what fetching does for a lazy binary.

Does not own: which binaries a caller has.
-/

namespace ContentStore.Cache

variable {cache : Cache} {hands others : List Binary} {binary : Binary}

/-- The handles on a genuine cache are those of some binaries, each with the
fingerprint of its entry. -/
structure Backs (cache : Cache) (hands : List Binary) : Prop where
  genuine : cache.Genuine
  handles : cache.held.Perm (hands.map Binary.entry)
  named : ∀ binary ∈ hands, binary.entry.fingerprint = binary.fingerprint

namespace Backs

theorem of_perm (backs : cache.Backs hands) (permutation : hands.Perm others) :
    cache.Backs others where
  genuine := backs.genuine
  handles := backs.handles.trans (permutation.map _)
  named := fun binary member => backs.named binary (permutation.mem_iff.mpr member)

/-- A binary that is cloned is in hand once more. -/
theorem hold (backs : cache.Backs hands) (member : binary ∈ hands) :
    (cache.hold binary.entry).Backs (binary :: hands) where
  genuine := by
    apply backs.genuine.hold
    apply backs.genuine.pinned
    exact backs.handles.mem_iff.mpr (List.mem_map_of_mem member)
  handles := backs.handles.cons _
  named := by
    intro other among
    rcases List.mem_cons.mp among with rfl | before
    · exact backs.named other member
    · exact backs.named other before

/-- A binary that is let go of is in hand no more. -/
theorem release (backs : cache.Backs (binary :: hands)) :
    (cache.release binary.entry).Backs hands where
  genuine := backs.genuine.release _
  handles := by
    have fewer := backs.handles.erase binary.entry
    rw [List.map_cons, List.erase_cons_head] at fewer
    exact fewer
  named := fun other member => backs.named other (List.mem_cons_of_mem _ member)

/-- Which names can be unlinked, and how new files are written, is nothing to the files that there
are. -/
theorem surround (backs : cache.Backs hands) (locked : List FileName) {medium : Writer}
    (blank : medium.reached = []) :
    { cache with folder := { cache.folder with locked := locked, medium := medium } }.Backs
      hands where
  genuine := ⟨backs.genuine.toSound.withFolder _, backs.genuine.intact, blank⟩
  handles := backs.handles
  named := backs.named

/-- Every binary in hand reads with its fingerprint and length. -/
theorem read (backs : cache.Backs hands) (member : binary ∈ hands) :
    ∃ content, cache.read binary.entry = .ok content ∧
      Fingerprint.ofContent content = binary.fingerprint ∧ content.length = binary.length := by
  have held : binary.entry ∈ cache.held :=
    backs.handles.mem_iff.mpr (List.mem_map_of_mem member)
  obtain ⟨content, read, hashed, measured⟩ :=
    backs.genuine.read (backs.genuine.pinned _ held)
  exact ⟨content, read, hashed.trans (backs.named binary member), measured⟩

variable {Connection : Type} {store after : Store Connection} {fingerprint : Fingerprint}

/-- A binary that an operation gives joins those in hand. -/
theorem given (backs : store.cache.Backs hands)
    (gives : Store.Gives fingerprint store (.ok binary, after)) :
    after.cache.Backs (binary :: hands) where
  genuine := gives.genuine
  handles := by
    obtain ⟨_, _, held⟩ := gives.given binary rfl
    rw [held, List.map_cons]
    exact backs.handles.cons _
  named := by
    intro other among
    obtain ⟨named, entryNamed, _⟩ := gives.given binary rfl
    rcases List.mem_cons.mp among with rfl | before
    · exact entryNamed.trans named.symm
    · exact backs.named other before

/-- An operation that fails leaves the binaries in hand as they were. -/
theorem refused {cause : StoreError} (backs : store.cache.Backs hands)
    (gives : Store.Gives fingerprint store (.error cause, after)) :
    after.cache.Backs hands where
  genuine := gives.genuine
  handles := by
    rw [gives.refused cause rfl]
    exact backs.handles
  named := backs.named

/-- What an operation gives joins the binaries in hand, if it gives one. -/
theorem take {result : Except StoreError Binary × Store Connection}
    (backs : store.cache.Backs hands) (gives : Store.Gives fingerprint store result) :
    result.2.cache.Backs (result.1.toOption.toList ++ hands) := by
  obtain ⟨outcome, after⟩ := result
  cases outcome with
  | ok binary => exact backs.given gives
  | error cause => exact backs.refused gives

end Backs

end ContentStore.Cache

/-! ## Lazy binaries -/

namespace ContentStore.LazyBinary

variable {Connection : Type} [Remote Connection] {store : Store Connection}
  {hands : List Binary} {deferred : LazyBinary}

/-- What has been fetched, if anything, is what was to be fetched. -/
def Faithful (deferred : LazyBinary) : Prop :=
  ∀ binary, deferred.binary = some binary → binary.fingerprint = deferred.fingerprint

/-- Fetching the content takes one more handle exactly if the content is fetched
now, and gives the binary that was to be fetched. -/
theorem Faithful.fetch (faithful : deferred.Faithful)
    (backs : store.cache.Backs (deferred.binary.toList ++ hands)) :
    (deferred.fetch store).2.1.Faithful ∧
      (deferred.fetch store).2.2.cache.Backs ((deferred.fetch store).2.1.binary.toList ++ hands) ∧
      ∀ binary, (deferred.fetch store).1 = .ok binary →
        binary.fingerprint = deferred.fingerprint ∧
          (deferred.fetch store).2.1.binary = some binary := by
  unfold LazyBinary.fetch
  split
  · rename_i binary fetched
    refine ⟨faithful, backs, ?_⟩
    intro other same
    rw [← Except.ok.inj same]
    exact ⟨faithful binary fetched, fetched⟩
  · rename_i absent
    rw [absent, Option.toList_none, List.nil_append] at backs
    have gives := Store.gives_get backs.genuine deferred.fingerprint
    split <;> rename_i done <;> rw [done] at gives
    · rename_i binary after
      have named := (gives.given binary rfl).1
      refine ⟨?_, backs.given gives, ?_⟩
      · intro other same
        rw [← Option.some.inj same]
        exact named
      · intro other same
        rw [← Except.ok.inj same]
        exact ⟨named, rfl⟩
    · refine ⟨faithful, ?_, by simp⟩
      rw [absent]
      exact backs.refused gives

/-- Asking for the length changes neither the content nor the cache. -/
theorem fetchLength_binary (deferred : LazyBinary) (store : Store Connection) :
    (deferred.fetchLength store).2.1.fingerprint = deferred.fingerprint ∧
      (deferred.fetchLength store).2.1.binary = deferred.binary ∧
      (deferred.fetchLength store).2.2.cache = store.cache := by
  unfold fetchLength
  split
  · exact ⟨rfl, rfl, rfl⟩
  · have kept := Store.length_cache store deferred.fingerprint
    split <;> rename_i done <;> rw [done] at kept
    · exact ⟨rfl, rfl, kept⟩
    · exact ⟨rfl, rfl, kept⟩

@[simp]
theorem fetch_collector (deferred : LazyBinary) (store : Store Connection) :
    (deferred.fetch store).2.2.collector = store.collector := by
  unfold LazyBinary.fetch
  split
  · rfl
  · have kept := store.get_collector deferred.fingerprint
    split <;> rename_i done <;> rw [done] at kept <;> exact kept

@[simp]
theorem fetchLength_collector (deferred : LazyBinary) (store : Store Connection) :
    (deferred.fetchLength store).2.2.collector = store.collector := by
  unfold fetchLength
  split
  · rfl
  · have kept : (store.length deferred.fingerprint).2.collector = store.collector := rfl
    split <;> rename_i done <;> rw [done] at kept <;> exact kept

omit [Remote Connection] in
@[simp]
theorem drop_collector (deferred : LazyBinary) (store : Store Connection) :
    (deferred.drop store).collector = store.collector := by
  unfold drop
  split <;> rfl

omit [Remote Connection] in
@[simp]
theorem drop_connection (deferred : LazyBinary) (store : Store Connection) :
    (deferred.drop store).connection = store.connection := by
  unfold drop
  split <;> rfl

end ContentStore.LazyBinary
