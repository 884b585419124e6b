import ContentStore.Store
import ContentStore.Proofs.Cache.Contents

/-!
Contract: what the operations of a store do to its cache, whatever the remote
answers.

Owns:
- `Store.Gives`, which tells how an operation ends that is to give a binary: the
  cache is genuine, and one more handle is held exactly if a binary was given;
- that `put` gives the binary of what the reader yields, and `get` that of the
  fingerprint it is asked for;
- that the other operations leave the cache alone, and these two the collector.

Does not own: what the operations do to the remote.
-/

namespace ContentStore.Store

variable {Connection : Type} [Remote Connection] {store : Store Connection}
  {cache : Cache}

/-- How an operation ends that is to give a binary of a fingerprint: with one
more handle, or else with the handles that there were. -/
structure Gives (fingerprint : Fingerprint) (before : Store Connection)
    (result : Except StoreError Binary × Store Connection) : Prop where
  genuine : result.2.cache.Genuine
  given : ∀ binary, result.1 = .ok binary →
    binary.fingerprint = fingerprint ∧ binary.entry.fingerprint = fingerprint ∧
      result.2.cache.held = binary.entry :: before.cache.held
  refused : ∀ cause, result.1 = .error cause → result.2.cache.held = before.cache.held

/-- A downloaded content is accepted only if it hashes to the fingerprint that
was asked for. -/
theorem gives_accept (genuine : cache.Genuine) (fingerprint : Fingerprint) (content : Bytes) :
    Cache.Gives fingerprint cache (accept fingerprint content cache) := by
  by_cases hashed : Fingerprint.ofContent content = fingerprint
  · have inserted := genuine.insert_created content
    rw [hashed] at inserted
    unfold accept
    simp only [if_pos hashed]
    split <;> rename_i done <;> rw [done] at inserted
    · refine ⟨inserted.genuine, ?_, by simp⟩
      intro entry same
      rw [← Except.ok.inj same]
      exact inserted.given _ rfl
    · exact ⟨inserted.genuine, by simp, fun _ _ => inserted.refused _ rfl⟩
  · have discarded := genuine.withFolder (Folder.SameFinal.create_discard cache.folder content)
    unfold accept
    simp only [if_neg hashed]
    exact ⟨discarded, by simp, fun _ _ => rfl⟩

/-- Whatever the remote sends, a binary that is got is the one asked for. -/
theorem gives_get (genuine : store.cache.Genuine) (fingerprint : Fingerprint) :
    Gives fingerprint store (store.get fingerprint) := by
  unfold Store.get
  split
  · rename_i entry cache found
    obtain ⟨after, named, held⟩ := genuine.get?_some found
    refine ⟨after, ?_, by simp⟩
    intro binary same
    rw [← Except.ok.inj same]
    exact ⟨rfl, named, held⟩
  · rename_i cache missed
    rw [Cache.get?_none missed]
    split
    · rename_i cause written connection failed
      have discarded := genuine.withFolder
        (Folder.SameFinal.create_discard store.cache.folder written)
      exact ⟨discarded, by simp, fun _ _ => rfl⟩
    · rename_i length written connection fetched
      have accepted := gives_accept genuine fingerprint written
      split <;> rename_i done <;> rw [done] at accepted
      · refine ⟨accepted.genuine, ?_, by simp⟩
        intro binary same
        rw [← Except.ok.inj same]
        exact ⟨rfl, accepted.given _ rfl⟩
      · exact ⟨accepted.genuine, by simp, fun _ _ => accepted.refused _ rfl⟩

/-- Whatever the remote answers, a binary that is put is that of what the reader
yields. -/
theorem gives_put (genuine : store.cache.Genuine) (reader : Reader) :
    Gives (Fingerprint.ofContent reader.content.1) store (store.put reader) := by
  unfold put putWhile
  split
  · rename_i kind cache refused
    obtain ⟨_, content, rfl⟩ := Cache.receive_error refused
    have discarded := genuine.withFolder
      (Folder.SameFinal.create_discard store.cache.folder content)
    exact ⟨discarded, by simp, fun _ _ => rfl⟩
  · rename_i fingerprint temporary cache received
    obtain ⟨_, rfl, rfl, rfl⟩ := Cache.receive_ok genuine.blank received
    have inserted := genuine.insert_created reader.content.1
    split <;> rename_i done <;> rw [done] at inserted
    · exact ⟨inserted.genuine, by simp, fun _ _ => inserted.refused _ rfl⟩
    · rename_i entry after
      obtain ⟨named, held⟩ := inserted.given entry rfl
      simp only
      split
      · refine ⟨inserted.genuine, ?_, by simp⟩
        intro binary same
        rw [← Except.ok.inj same]
        exact ⟨rfl, named, held⟩
      · refine ⟨inserted.genuine.release entry, by simp, ?_⟩
        intro cause failed
        show after.held.erase entry = store.cache.held
        rw [held, List.erase_cons_head]

/-! ## Operations that leave the cache alone -/

@[simp]
theorem length_cache (store : Store Connection) (fingerprint : Fingerprint) :
    (store.length fingerprint).2.cache = store.cache :=
  rfl

@[simp]
theorem remove_cache (store : Store Connection) (fingerprint : Fingerprint) :
    (store.remove fingerprint).2.cache = store.cache :=
  rfl

@[simp]
theorem list_cache (store : Store Connection) : store.list.2.cache = store.cache :=
  rfl

omit [Remote Connection] in
@[simp]
theorem startCollection_cache (store : Store Connection) :
    store.startCollection.2.cache = store.cache := by
  unfold startCollection
  split <;> rfl

omit [Remote Connection] in
@[simp]
theorem mark_cache (store : Store Connection) (fingerprint : Fingerprint) :
    (store.mark fingerprint).2.cache = store.cache := by
  unfold mark
  split <;> rfl

@[simp]
theorem stopCollection_cache (store : Store Connection) (delete : Bool)
    (elapsed : UInt64) : (store.stopCollection delete elapsed).2.cache = store.cache :=
  rfl

/-! ## Operations that leave the collector alone -/

@[simp]
theorem putWhile_collector (store : Store Connection) (meanwhile : Folder → Folder)
    (reader : Reader) : (store.putWhile meanwhile reader).2.collector = store.collector := by
  unfold putWhile
  split
  · rfl
  · split
    · rfl
    · simp only
      split <;> rfl

@[simp]
theorem get_collector (store : Store Connection) (fingerprint : Fingerprint) :
    (store.get fingerprint).2.collector = store.collector := by
  unfold Store.get
  split
  · rfl
  · split
    · rfl
    · split <;> rfl

end ContentStore.Store
