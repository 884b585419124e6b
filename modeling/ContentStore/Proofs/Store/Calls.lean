import ContentStore.Proofs.Store.Usage

/-!
Contract: what the operations of a store ask of its remote.

Owns:
- `putWhile_cases`, by which a put calls the remote only to upload a file;
- `KeptByCalls`, by which every call on the remote that deletes nothing keeps
  something of it, and that every operation keeps it but removals and sweeps.

Does not own: how a remote answers.
-/

namespace ContentStore.Store

variable {Connection : Type} [Remote Connection] {Kept : Connection → Prop}
  {store : Store Connection}

/-- A put either fails before it calls the remote, or is about the fingerprint
under which it uploads a file. -/
theorem putWhile_cases (store : Store Connection) (meanwhile : Folder → Folder)
    (reader : Reader) :
    (∃ cause, (store.putWhile meanwhile reader).1 = .error cause ∧
      (store.putWhile meanwhile reader).2.connection = store.connection) ∨
    ∃ fingerprint file,
      (store.putWhile meanwhile reader).2.connection =
        (upload fingerprint file store.connection).2 ∧
      ∀ binary, (store.putWhile meanwhile reader).1 = .ok binary →
        binary.fingerprint = fingerprint ∧
          (upload fingerprint file store.connection).1 = .ok () := by
  unfold putWhile
  split
  · exact Or.inl ⟨_, rfl, rfl⟩
  · split
    · exact Or.inl ⟨_, rfl, rfl⟩
    · rename_i fingerprint _ _ _ _ entry inserted _
      refine Or.inr ⟨fingerprint,
        { inserted with folder := meanwhile inserted.folder }.read entry, ?_⟩
      simp only
      split <;> rename_i done <;> rw [done]
      · refine ⟨rfl, ?_⟩
        intro binary given
        rw [← Except.ok.inj given]
        exact ⟨rfl, rfl⟩
      · exact ⟨rfl, by simp⟩

/-- What every call on a remote keeps that deletes nothing. -/
structure KeptByCalls (Kept : Connection → Prop) : Prop where
  head : ∀ key connection, Kept connection → Kept (Remote.head key connection).2
  get : ∀ key connection, Kept connection → Kept (Remote.get key connection).2
  put : ∀ content connection, Kept connection → Kept (Remote.put content connection).2
  list : ∀ connection, Kept connection → Kept (Remote.list connection).2

namespace KeptByCalls

private theorem upload (calls : KeptByCalls Kept) (fingerprint : Fingerprint)
    (file : Except IoKind Bytes) {connection : Connection} (kept : Kept connection) :
    Kept (Store.upload fingerprint file connection).2 := by
  have asked := calls.head fingerprint.text connection kept
  unfold Store.upload
  split <;> rename_i answered <;> rw [answered] at asked
  · exact asked
  · exact asked
  · rename_i after
    have stored : Kept (Remote.putFile file after).2 := by
      unfold Remote.putFile
      split
      · exact calls.put _ _ asked
      · exact asked
    split <;> rename_i done <;> rw [done] at stored
    · exact stored
    · split <;> exact stored

theorem putWhile (calls : KeptByCalls Kept) (meanwhile : Folder → Folder) (reader : Reader)
    (kept : Kept store.connection) : Kept (store.putWhile meanwhile reader).2.connection := by
  rcases putWhile_cases store meanwhile reader with
    ⟨cause, _, same⟩ | ⟨fingerprint, file, uploaded, _⟩
  · rw [same]
    exact kept
  · rw [uploaded]
    exact calls.upload fingerprint file kept

private theorem fetched (calls : KeptByCalls Kept) (fingerprint : Fingerprint)
    (kept : Kept store.connection) : Kept (store.get fingerprint).2.connection := by
  have asked := calls.get fingerprint.text store.connection kept
  unfold Store.get
  split
  · exact kept
  · split <;> rename_i answered <;> rw [answered] at asked
    · exact asked
    · split <;> exact asked

private theorem fetch (calls : KeptByCalls Kept) (deferred : LazyBinary)
    (kept : Kept store.connection) :
    Kept (deferred.fetch store).2.2.connection := by
  have asked := calls.fetched deferred.fingerprint kept
  unfold LazyBinary.fetch
  split
  · exact kept
  · split <;> rename_i done <;> rw [done] at asked <;> exact asked

private theorem fetchLength (calls : KeptByCalls Kept) (deferred : LazyBinary)
    (kept : Kept store.connection) : Kept (deferred.fetchLength store).2.2.connection := by
  have asked : Kept (store.length deferred.fingerprint).2.connection := calls.head _ _ kept
  unfold LazyBinary.fetchLength
  split
  · exact kept
  · split <;> rename_i done <;> rw [done] at asked <;> exact asked

variable {usage : Usage Connection}

omit [Remote Connection] in
private theorem replace {deferred : LazyBinary} {result : LazyBinary × Store Connection}
    (before : Kept usage.store.connection) (kept : Kept result.2.connection) :
    Kept (usage.replace deferred result).store.connection := by
  unfold Usage.replace
  split
  · exact kept
  · exact before

/-- What calls keep that delete nothing, every operation keeps, if removals and
sweeps do. -/
theorem perform (calls : KeptByCalls Kept) (operation : Operation)
    (removing : ∀ fingerprint, operation = .remove fingerprint →
      Kept (Remote.delete fingerprint.text usage.store.connection).2)
    (sweeping : ∀ delete elapsed, operation = .stop delete elapsed →
      Kept (usage.session.perform (.stop delete elapsed [])).connection)
    (kept : Kept usage.store.connection) : Kept (usage.perform operation).store.connection := by
  cases operation with
  | put reader =>
    simp only [Usage.perform, Usage.take_connection]
    exact calls.putWhile _ reader kept
  | get fingerprint =>
    simp only [Usage.perform, Usage.take_connection]
    exact calls.fetched fingerprint kept
  | length fingerprint => exact calls.head _ _ kept
  | remove fingerprint => exact removing fingerprint rfl
  | list => exact calls.list _ kept
  | start =>
    show Kept (usage.perform .start).session.connection
    rw [Usage.session_start]
    simp only [Collector.Session.perform]
    split <;> exact kept
  | mark fingerprint =>
    show Kept (usage.perform (.mark fingerprint)).session.connection
    rw [Usage.session_mark]
    simp only [Collector.Session.perform]
    split <;> exact kept
  | stop delete elapsed =>
    show Kept (usage.perform (.stop delete elapsed)).session.connection
    rw [Usage.session_stop]
    exact sweeping delete elapsed rfl
  | clone binary =>
    simp only [Usage.perform]
    split <;> exact kept
  | drop binary =>
    simp only [Usage.perform]
    split <;> exact kept
  | defer fingerprint => exact kept
  | fetch deferred => exact replace kept (calls.fetch deferred kept)
  | fetchFile deferred => exact replace kept (calls.fetch deferred kept)
  | fetchLength deferred => exact replace kept (calls.fetchLength deferred kept)
  | dropDeferred deferred =>
    simp only [Usage.perform]
    split
    · rw [LazyBinary.drop_connection]
      exact kept
    · exact kept

end KeptByCalls

end ContentStore.Store
