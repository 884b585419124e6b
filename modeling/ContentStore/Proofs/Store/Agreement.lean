import ContentStore.Proofs.Cache.Tidy
import ContentStore.Proofs.Store.Integrity

/-!
Contract: the folder of a store and its cache agree.

Owns:
- that `put` and `get` leave a tidy cache, whichever way they end;
- `ObligedThroughout`, by which every operation finds a folder whose files can
  be unlinked;
- that between operations the files in the folder are those of the cached
  fingerprints, with the sizes that the cache has noted.

Does not own: folders in which files cannot be unlinked.
-/

namespace ContentStore.Store

variable {Connection : Type} [Remote Connection] {store : Store Connection} {cache : Cache}

/-- A downloaded content is accepted or discarded. -/
theorem tidy_accept (tidy : cache.Tidy) (obliging : cache.folder.Obliging)
    (fingerprint : Fingerprint) (content : Bytes) :
    (accept fingerprint content cache).2.Tidy := by
  by_cases hashed : Fingerprint.ofContent content = fingerprint
  · have inserted := tidy.insert_created obliging content
    rw [hashed] at inserted
    unfold accept
    simp only [if_pos hashed]
    split <;> rename_i done <;> rw [done] at inserted <;> exact inserted
  · unfold accept
    simp only [if_neg hashed]
    exact tidy.create_discard obliging content

private theorem tidy_get (tidy : store.cache.Tidy) (obliging : store.cache.folder.Obliging)
    (fingerprint : Fingerprint) : (store.get fingerprint).2.cache.Tidy := by
  have looked := tidy.get? fingerprint
  unfold Store.get
  split
  · rename_i found
    rw [found] at looked
    exact looked
  · rename_i cache missed
    rw [Cache.get?_none missed]
    split
    · rename_i cause written connection failed
      exact tidy.create_discard obliging written
    · rename_i length written connection fetched
      have accepted := tidy_accept tidy obliging fingerprint written
      split <;> rename_i done <;> rw [done] at accepted <;> exact accepted

private theorem tidy_put (tidy : store.cache.Tidy) (obliging : store.cache.folder.Obliging)
    (reader : Reader) : (store.put reader).2.cache.Tidy := by
  unfold put putWhile
  split
  · rename_i kind cache refused
    obtain ⟨_, content, rfl⟩ := Cache.receive_error refused
    exact tidy.create_discard obliging content
  · rename_i fingerprint temporary cache received
    obtain ⟨_, rfl, rfl, rfl⟩ := Cache.receive_ok tidy.blank received
    have inserted := tidy.insert_created obliging reader.content.1
    split <;> rename_i done <;> rw [done] at inserted
    · exact inserted
    · rename_i entry after
      simp only
      split
      · exact inserted
      · exact inserted.release entry

/-- While files can be unlinked, no operation leaves a cache that is not tidy, whether
it succeeds or fails. -/
theorem keptInHand_tidy (obliging : store.cache.folder.Obliging) :
    store.KeptInHand fun cache hands => cache.Backs hands ∧ cache.Tidy where
  perm := fun ⟨backs, tidy⟩ permutation => ⟨backs.of_perm permutation, tidy⟩
  hold := by
    intro cache hands binary ⟨backs, tidy⟩ member
    have held : binary.entry ∈ cache.held :=
      backs.handles.mem_iff.mpr (List.mem_map_of_mem member)
    exact ⟨backs.hold member, tidy.hold (tidy.pinned _ held)⟩
  release := fun ⟨backs, tidy⟩ => ⟨backs.release, tidy.release _⟩
  put := fun reader ⟨backs, tidy⟩ =>
    ⟨(Usage.keptInHand_backs store).put reader backs, tidy_put tidy obliging reader⟩
  get := fun fingerprint ⟨backs, tidy⟩ =>
    ⟨(Usage.keptInHand_backs store).get fingerprint backs, tidy_get tidy obliging fingerprint⟩

/-! ## Runs in which files can be unlinked -/

/-- Whether a step is no operation, or one that finds a folder whose files can be
unlinked. -/
def Step.IsObliged (folder : Folder) : Step Connection → Prop
  | .act _ => folder.Obliging
  | _ => True

instance (folder : Folder) (taken : Step Connection) : Decidable (taken.IsObliged folder) := by
  unfold Step.IsObliged
  split <;> infer_instance

namespace Usage

variable {usage : Usage Connection}

def ObligedThroughout : List (Step Connection) → Usage Connection → Prop
  | [], _ => True
  | taken :: rest, usage =>
    taken.IsObliged usage.store.cache.folder ∧ ObligedThroughout rest (usage.step taken)

private def obligedThroughoutDecidable :
    (steps : List (Step Connection)) → (usage : Usage Connection) →
      Decidable (ObligedThroughout steps usage)
  | [], _ => isTrue trivial
  | taken :: rest, usage =>
    @instDecidableAnd _ _ (inferInstanceAs (Decidable (taken.IsObliged usage.store.cache.folder)))
      (obligedThroughoutDecidable rest (usage.step taken))

instance (steps : List (Step Connection)) (usage : Usage Connection) :
    Decidable (ObligedThroughout steps usage) :=
  obligedThroughoutDecidable steps usage

private theorem tidy_step (genuine : usage.Genuine) (tidy : usage.store.cache.Tidy)
    {taken : Step Connection} (own : taken.IsOwn)
    (obliged : taken.IsObliged usage.store.cache.folder) :
    (usage.step taken).store.cache.Tidy := by
  cases taken with
  | act operation =>
    exact ((keptInHand_tidy obliged).perform ⟨genuine.backs, tidy⟩ operation).2
  | surround locked medium =>
    -- The names in the folder stay as they are.
    have kept : (usage.step (.surround locked medium)).Genuine := genuine.step own
    exact ⟨kept.backs.genuine, tidy.distinct, tidy.owning, tidy.noOrphans⟩
  | elsewhere change => exact tidy
  | alter folder => exact absurd own id
  | putWhile meanwhile reader => exact absurd own id

private theorem tidy_run (genuine : usage.Genuine) (tidy : usage.store.cache.Tidy)
    {steps : List (Step Connection)} (own : ∀ taken ∈ steps, taken.IsOwn)
    (obliged : ObligedThroughout steps usage) : (run steps usage).store.cache.Tidy := by
  induction steps generalizing usage with
  | nil => exact tidy
  | cons taken rest inductionHypothesis =>
    have first := own taken List.mem_cons_self
    exact inductionHypothesis (genuine.step first) (tidy_step genuine tidy first obliged.1)
      (fun later member => own later (List.mem_cons_of_mem _ member)) obliged.2

/-- Whatever the remote answers, however readers and writes fail, and whichever
renamings are refused: as long as nobody else changes the folder and existing
files can be unlinked, after every operation the folder shows the cached
fingerprints and nothing else, the file of each entry has the size that the entry
tells, there are no orphans, and the total is the sum of the sizes of the
files. -/
theorem folder_agrees_with_cache (repository : String) (budget : Nat) (connection : Connection)
    (history : List (Step Connection)) (own : ∀ taken ∈ history, taken.IsOwn)
    (obliged : ObligedThroughout history (first repository budget connection))
    (cache : Cache)
    (reached : (run history (first repository budget connection)).store.cache = cache) :
    cache.folder.names.Perm (cache.entries.map fun entry => entry.fingerprint.text) ∧
      (∀ entry ∈ cache.entries, ∃ content,
        cache.folder.item? entry.file = some (.file content) ∧ content.length = entry.size) ∧
      cache.orphans = [] ∧
      cache.total = (cache.folder.items.map fun item => cache.folder.sizeOf item.1).sum := by
  have tidy : cache.Tidy := by
    rw [← reached]
    exact tidy_run (genuine_first repository budget connection) (Cache.tidy_empty budget false)
      own obliged
  refine ⟨tidy.names_perm, ?_, tidy.noOrphans, tidy.total_eq⟩
  intro entry member
  obtain ⟨content, file, _, measured⟩ := tidy.intact entry member
  exact ⟨content, file, measured⟩

/-! ### Operations that fail in different ways -/

/-- A file is stored.  Then a write fails, a reader fails, a renaming is refused,
an object is absent, a download breaks off, and another one brings something
else. -/
def mishaps : List (Step Bucket) :=
  [.act (.put (Reader.ofContent [1])),
    .surround [] ⟨[], none, some 1, some .other, none, [], 0⟩,
    .act (.put (Reader.ofContent [2, 2])),
    .surround [.stored (Fingerprint.ofContent [4])] Writer.unlimited,
    .act (.put [.octets [3], .failure .connectionReset]),
    .act (.put (Reader.ofContent [4])),
    .act (.get (Fingerprint.ofContent [5])),
    .elsewhere fun bucket => bucket.addFault ⟨.get, none, .failure (.remoteFailure 500 "") [6]⟩,
    .act (.get (Fingerprint.ofContent [6, 6])),
    .elsewhere fun bucket => bucket.addFault ⟨.get, none, .lie none [7] ""⟩,
    .act (.get (Fingerprint.ofContent [8]))]

/-- The file is stored again and let go of, and another one takes its place. -/
def replacement : List (Step Bucket) :=
  [.act (.put (Reader.ofContent [1])),
    .act (.drop ⟨⟨0, Fingerprint.ofContent [1], 1⟩, Fingerprint.ofContent [1], ""⟩),
    .act (.drop ⟨⟨0, Fingerprint.ofContent [1], 1⟩, Fingerprint.ofContent [1], ""⟩),
    .act (.put (Reader.ofContent [9]))]

/-- The last file is in the folder, and nothing of any other. -/
theorem folder_agrees_after_mishaps :
    ObligedThroughout (mishaps ++ replacement) (first "" 1 (Bucket.empty "")) ∧
      (run (mishaps ++ replacement) (first "" 1 (Bucket.empty ""))).store.cache.folder.names.Perm
        [(Fingerprint.ofContent [9]).text] := by
  have own : ∀ taken ∈ mishaps ++ replacement, taken.IsOwn := by
    simp [mishaps, replacement, Step.IsOwn]
  have obliged : ObligedThroughout (mishaps ++ replacement) (first "" 1 (Bucket.empty "")) := by
    decide +kernel
  have cached : (run (mishaps ++ replacement)
      (first "" 1 (Bucket.empty ""))).store.cache.entries.map
        (fun entry => entry.fingerprint.text) = [(Fingerprint.ofContent [9]).text] := by
    decide +kernel
  obtain ⟨names, _⟩ := folder_agrees_with_cache "" 1 (Bucket.empty "") _ own obliged _ rfl
  rw [cached] at names
  exact ⟨obliged, names⟩

end Usage

end ContentStore.Store
