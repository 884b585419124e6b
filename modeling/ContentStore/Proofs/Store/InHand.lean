import ContentStore.Proofs.Store.Usage

/-!
Contract: what callers do to the cache of a store and to what they have in hand.

Owns:
- `KeptInHand`, by which callers cannot break what holds of a cache and of the
  binaries in hand, and that no operation breaks it then;
- which lazy binaries there are after an operation.

Does not own: what is to be kept, and what others do to the folder.
-/

namespace ContentStore.Store

variable {Connection : Type} [Remote Connection] {Kept : Cache → List Binary → Prop}

/-- What callers cannot break of the cache of a store and of the binaries in hand:
taking another handle keeps it, and letting go of one, and whatever the store does that
is to give a binary. -/
structure KeptInHand (store : Store Connection) (Kept : Cache → List Binary → Prop) :
    Prop where
  perm : ∀ {cache hands others}, Kept cache hands → hands.Perm others → Kept cache others
  hold : ∀ {cache hands binary}, Kept cache hands → binary ∈ hands →
    Kept (cache.hold binary.entry) (binary :: hands)
  release : ∀ {cache hands binary}, Kept cache (binary :: hands) →
    Kept (cache.release binary.entry) hands
  put : ∀ {hands} reader, Kept store.cache hands →
    Kept (store.put reader).2.cache ((store.put reader).1.toOption.toList ++ hands)
  get : ∀ {hands} fingerprint, Kept store.cache hands →
    Kept (store.get fingerprint).2.cache
      ((store.get fingerprint).1.toOption.toList ++ hands)

namespace Usage

variable {usage : Usage Connection} {deferred other : LazyBinary}

omit [Remote Connection] in
/-- Among the binaries in hand are those of every lazy binary. -/
theorem perm_deferred (member : deferred ∈ usage.deferred) :
    usage.hands.Perm (deferred.binary.toList ++
      (usage.binaries ++ (usage.deferred.erase deferred).filterMap LazyBinary.binary)) := by
  refine List.Perm.trans ?_ (hands_perm usage.binaries deferred (usage.deferred.erase deferred))
  exact ((List.perm_cons_erase member).filterMap _).append_left _

omit [Remote Connection] in
private theorem mem_deferred_replace {result : LazyBinary × Store Connection}
    (member : other ∈ (usage.replace deferred result).deferred) :
    other ∈ usage.deferred ∨ deferred ∈ usage.deferred ∧ other = result.1 := by
  unfold replace at member
  split at member
  · rename_i known
    rcases List.mem_cons.mp member with rfl | before
    · exact Or.inr ⟨known, rfl⟩
    · exact Or.inl (List.mem_of_mem_erase before)
  · exact Or.inl member

/-- A lazy binary after an operation was there before, or is new, or is what one has
become that was fetched or whose length was. -/
theorem deferred_cases {operation : Operation}
    (member : other ∈ (usage.perform operation).deferred) :
    other ∈ usage.deferred ∨
      (∃ fingerprint, other = LazyBinary.ofFingerprint fingerprint) ∨
      ∃ deferred ∈ usage.deferred,
        other = (deferred.fetch usage.store).2.1 ∨
          other = (deferred.fetchLength usage.store).2.1 := by
  cases operation with
  | put reader =>
    rw [perform, deferred_take] at member
    exact Or.inl member
  | get fingerprint =>
    rw [perform, deferred_take] at member
    exact Or.inl member
  | length fingerprint => exact Or.inl member
  | remove fingerprint => exact Or.inl member
  | list => exact Or.inl member
  | start =>
    simp only [perform] at member
    split at member <;> exact Or.inl member
  | mark fingerprint =>
    simp only [perform] at member
    split at member <;> exact Or.inl member
  | stop delete elapsed => exact Or.inl member
  | clone binary =>
    simp only [perform] at member
    split at member <;> exact Or.inl member
  | drop binary =>
    simp only [perform] at member
    split at member <;> exact Or.inl member
  | defer fingerprint =>
    rcases List.mem_cons.mp member with rfl | before
    · exact Or.inr (Or.inl ⟨fingerprint, rfl⟩)
    · exact Or.inl before
  | fetch deferred =>
    rcases mem_deferred_replace member with before | ⟨known, rfl⟩
    · exact Or.inl before
    · exact Or.inr (Or.inr ⟨deferred, known, Or.inl rfl⟩)
  | fetchFile deferred =>
    rcases mem_deferred_replace member with before | ⟨known, rfl⟩
    · exact Or.inl before
    · exact Or.inr (Or.inr ⟨deferred, known, Or.inl rfl⟩)
  | fetchLength deferred =>
    rcases mem_deferred_replace member with before | ⟨known, rfl⟩
    · exact Or.inl before
    · exact Or.inr (Or.inr ⟨deferred, known, Or.inr rfl⟩)
  | dropDeferred deferred =>
    simp only [perform] at member
    split at member
    · exact Or.inl (List.mem_of_mem_erase member)
    · exact Or.inl member

omit [Remote Connection] in
/-- What holds of the cache and of the binaries in hand after an operation holds when
its binary has been taken. -/
theorem kept_take {result : Except StoreError Binary × Store Connection}
    (after : Kept result.2.cache (result.1.toOption.toList ++ usage.hands)) :
    Kept (usage.take result).store.cache (usage.take result).hands := by
  rw [cache_take, hands_take]
  exact after

end Usage

namespace KeptInHand

variable {store : Store Connection} {usage : Usage Connection} {deferred : LazyBinary}

private theorem replace (keeps : usage.store.KeptInHand Kept)
    (kept : Kept usage.store.cache usage.hands) (deferred : LazyBinary)
    (result : LazyBinary × Store Connection)
    (asked : ∀ others, Kept usage.store.cache (deferred.binary.toList ++ others) →
      Kept result.2.cache (result.1.binary.toList ++ others)) :
    Kept (usage.replace deferred result).store.cache (usage.replace deferred result).hands := by
  unfold Usage.replace
  split
  · rename_i member
    exact keeps.perm (asked _ (keeps.perm kept (Usage.perm_deferred member))) (Usage.hands_perm _ _ _).symm
  · exact kept

/-- A content that is fetched now is got; one that has been fetched stays. -/
theorem fetch (keeps : store.KeptInHand Kept) {others : List Binary}
    (kept : Kept store.cache (deferred.binary.toList ++ others)) :
    Kept (deferred.fetch store).2.2.cache
      ((deferred.fetch store).2.1.binary.toList ++ others) := by
  unfold LazyBinary.fetch
  split
  · exact kept
  · rename_i absent
    rw [absent] at kept
    have given := keeps.get deferred.fingerprint kept
    split <;> rename_i done <;> rw [done] at given
    · exact given
    · rw [absent]
      exact given

/-- No operation breaks what callers cannot break. -/
theorem perform (keeps : usage.store.KeptInHand Kept)
    (kept : Kept usage.store.cache usage.hands) (operation : Operation) :
    Kept (usage.perform operation).store.cache (usage.perform operation).hands := by
  cases operation with
  | put reader => exact Usage.kept_take (keeps.put reader kept)
  | get fingerprint => exact Usage.kept_take (keeps.get fingerprint kept)
  | length fingerprint => exact kept
  | remove fingerprint => exact kept
  | list => exact kept
  | start =>
    have same := startCollection_cache usage.store
    simp only [Usage.perform]
    split <;> rename_i done <;> rw [done] at same <;> exact same ▸ kept
  | mark fingerprint =>
    have same := mark_cache usage.store fingerprint
    simp only [Usage.perform]
    split <;> rename_i done <;> rw [done] at same <;> exact same ▸ kept
  | stop delete elapsed => exact kept
  | clone binary =>
    simp only [Usage.perform]
    split
    · rename_i member
      exact keeps.hold kept member
    · exact kept
  | drop binary =>
    simp only [Usage.perform]
    split
    · rename_i member
      apply keeps.release
      exact keeps.perm kept ((List.perm_cons_erase member).append_right _)
    · exact kept
  | defer fingerprint => exact kept
  | fetch deferred => exact keeps.replace kept deferred _ fun _ => keeps.fetch
  | fetchFile deferred => exact keeps.replace kept deferred _ fun _ => keeps.fetch
  | fetchLength deferred =>
    -- Only the length is noted; what has been fetched before stays.
    obtain ⟨_, same, untouched⟩ := deferred.fetchLength_binary usage.store
    apply keeps.replace kept
    intro others before
    rw [same, untouched]
    exact before
  | dropDeferred deferred =>
    simp only [Usage.perform]
    split
    · rename_i member
      have before := keeps.perm kept (Usage.perm_deferred member)
      unfold LazyBinary.drop
      split <;> rename_i fetched <;> rw [fetched] at before
      · exact keeps.release before
      · exact before
    · exact kept

end KeptInHand

end ContentStore.Store
