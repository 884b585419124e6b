import ContentStore.Proofs.Cache.Run
import ContentStore.Proofs.Fingerprint

/-!
Contract: an entry on which a handle is held is safe.

Owns:
- `Cache.HeldThroughout`, by which a handle is held before and after every one
  of some steps;
- that a held entry stays the one that is found under its fingerprint, that no
  action touches its file, and that its file reads the same as long as only
  callers of the cache act.

Does not own: what the file of an entry contains.
-/

namespace ContentStore.Cache

open Fingerprint (repeated)

variable {cache : Cache} {entry : Entry}

/-- Whether a step leaves what stands in the folder to the cache.  Names may be
locked by it, so that any unlinking and any renaming may fail. -/
def Step.IsOwn : Step → Prop
  | .alter _ => False
  | _ => True

instance : DecidablePred Step.IsOwn
  | .act _ => isTrue trivial
  | .lock _ => isTrue trivial
  | .alter _ => isFalse id

/-- A handle on an entry is held before and after every one of some steps. -/
def HeldThroughout (entry : Entry) : List Step → Cache → Prop
  | [], cache => entry ∈ cache.held
  | first :: rest, cache => entry ∈ cache.held ∧ HeldThroughout entry rest (cache.step first)

private def heldThroughoutDecidable (entry : Entry) :
    (steps : List Step) → (cache : Cache) → Decidable (HeldThroughout entry steps cache)
  | [], cache => inferInstanceAs (Decidable (entry ∈ cache.held))
  | first :: rest, cache =>
    @instDecidableAnd _ _ (inferInstanceAs (Decidable (entry ∈ cache.held)))
      (heldThroughoutDecidable entry rest (cache.step first))

instance (entry : Entry) (steps : List Step) (cache : Cache) :
    Decidable (HeldThroughout entry steps cache) :=
  heldThroughoutDecidable entry steps cache

/-- A step that leaves the folder to the cache leaves the file of a held entry
alone. -/
theorem Sound.item?_step (sound : cache.Sound) (held : entry ∈ cache.held) {taken : Step}
    (own : taken.IsOwn) :
    (cache.step taken).folder.item? entry.file = cache.folder.item? entry.file := by
  cases taken with
  | act action => exact sound.item?_perform held action
  | lock names => rfl
  | alter folder => exact absurd own id

/-- The file of an entry is as it was for as long as a handle is held. -/
theorem Sound.item?_run (sound : cache.Sound) {steps : List Step}
    (own : ∀ taken ∈ steps, taken.IsOwn) (held : HeldThroughout entry steps cache) :
    (Cache.run steps cache).folder.item? entry.file = cache.folder.item? entry.file := by
  induction steps generalizing cache with
  | nil => rfl
  | cons first rest inductionHypothesis =>
    have later := inductionHypothesis (sound.step first)
      (fun taken member => own taken (List.mem_cons_of_mem _ member)) held.2
    exact later.trans (sound.item?_step held.1 (own first List.mem_cons_self))

/-- An entry on which a handle is held is the one that is found under its
fingerprint, whatever has happened to the cache and its folder; no action of
the cache unlinks or replaces its file; and the file reads the same through the
handle for as long as it is held and nobody but the cache changes the
folder. -/
theorem held_entry_is_safe (budget : Nat) (keepsFolder : Bool) (history : List Step)
    (entry : Entry) (held : entry ∈ (run history (empty budget keepsFolder)).held) :
    (run history (empty budget keepsFolder)).find? entry.fingerprint = some entry ∧
      (∀ action,
        ((run history (empty budget keepsFolder)).perform action).folder.item? entry.file =
          (run history (empty budget keepsFolder)).folder.item? entry.file) ∧
      ∀ later, (∀ taken ∈ later, taken.IsOwn) →
        HeldThroughout entry later (run history (empty budget keepsFolder)) →
        (run later (run history (empty budget keepsFolder))).read entry =
          (run history (empty budget keepsFolder)).read entry := by
  have sound := sound_run_empty budget keepsFolder history
  refine ⟨?_, ?_, ?_⟩
  · exact (sound.find?_eq_some_iff _).mpr ⟨sound.pinned entry held, rfl⟩
  · exact sound.item?_perform held
  · intro later own through
    unfold read Folder.read
    rw [sound.item?_run own through]

/-! ### A name that comes back while its old file is an orphan -/

/-- An entry is evicted while its file is locked, and its name is inserted again
when the file is an orphan. -/
def reinsertion : List Step :=
  [.act .create, .act (.fill 1 [1, 1]), .act (.insert (repeated 0) 1),
    .act (.drop ⟨0, repeated 0, 2⟩), .lock [.stored (repeated 0)],
    .act .create, .act (.fill 1 [2, 2]), .act (.insert (repeated 1) 1), .lock [],
    .act .create, .act (.fill 1 [3, 3]), .act (.insert (repeated 0) 1)]

/-- Another insertion, over the budget, when all entries are held. -/
def pressure : List Step :=
  [.act .create, .act (.fill 1 [4, 4]), .act (.insert (repeated 2) 1)]

/-- The entry that was inserted again survives the next insertion. -/
theorem reinserted_entry_is_safe :
    ⟨2, repeated 0, 2⟩ ∈ (run reinsertion (empty 2 false)).held ∧
      (run reinsertion (empty 2 false)).find? (repeated 0) = some ⟨2, repeated 0, 2⟩ ∧
      HeldThroughout ⟨2, repeated 0, 2⟩ pressure (run reinsertion (empty 2 false)) ∧
      (run pressure (run reinsertion (empty 2 false))).read ⟨2, repeated 0, 2⟩ =
        (run reinsertion (empty 2 false)).read ⟨2, repeated 0, 2⟩ := by
  have held : ⟨2, repeated 0, 2⟩ ∈ (run reinsertion (empty 2 false)).held := by
    decide +kernel
  have through :
      HeldThroughout ⟨2, repeated 0, 2⟩ pressure (run reinsertion (empty 2 false)) := by
    decide +kernel
  have safe := held_entry_is_safe 2 false reinsertion ⟨2, repeated 0, 2⟩ held
  exact ⟨held, safe.1, through, safe.2.2 pressure (by decide) through⟩

end ContentStore.Cache
