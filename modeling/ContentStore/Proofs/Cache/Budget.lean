import ContentStore.Proofs.Cache.Pinned
import ContentStore.Proofs.Cache.Rounds

/-!
Contract: a cache and its budget.

Owns:
- that an insertion ends within the budget, or with no other entries than those
  on which handles are held, whichever files cannot be unlinked;
- `UnhinderedThroughout`, by which nobody holds a handle when a file is
  inserted, and the files of all entries can be unlinked;
- `Frugal`, by which a cache is within its budget or has one entry only, and
  that every such run keeps it.

Does not own: which entries an insertion evicts.
-/

namespace ContentStore.Cache

open Fingerprint (repeated)

variable {cache after : Cache} {entry : Entry} {fingerprint : Fingerprint} {folder : Folder}
  {size : Nat}

/-! ## One insertion -/

/-- When room has been made for a new entry, the cache is within its budget, or
a handle is held on every other entry. -/
theorem Sound.fits_evict (sound : cache.Sound) (absent : cache.find? fingerprint = none)
    (folder : Folder) (size : Nat) :
    ((cache.enter folder fingerprint size).evict fingerprint).total ≤ cache.budget ∨
      ∀ other ∈ ((cache.enter folder fingerprint size).evict fingerprint).entries,
        other.fingerprint ≠ fingerprint → other ∈ cache.held := by
  obtain ⟨_, _, _, ended⟩ := (sound.enter absent folder size).exists_rounds fingerprint
  have exhausted := evictOne?_eq_none_iff.mp ended
  unfold Evictable at exhausted
  rw [evict_budget, evict_held, enter_budget, enter_held] at exhausted
  refine exhausted.imp_right fun staying other member different => ?_
  by_contra free
  exact staying other member ⟨different, free⟩

/-! ## Runs in which nothing is in the way -/

/-- Whether a step is no insertion, or one that finds no handle held and all
files of entries ready to be unlinked. -/
def Step.IsUnhindered (cache : Cache) : Step → Prop
  | .act (.insert _ _) =>
    cache.held = [] ∧ ∀ entry ∈ cache.entries, ¬ cache.folder.Refuses entry.file
  | _ => True

instance (cache : Cache) : DecidablePred (Step.IsUnhindered cache) := by
  intro taken
  unfold Step.IsUnhindered
  split <;> infer_instance

def UnhinderedThroughout : List Step → Cache → Prop
  | [], _ => True
  | first :: rest, cache =>
    first.IsUnhindered cache ∧ UnhinderedThroughout rest (cache.step first)

private def unhinderedThroughoutDecidable :
    (steps : List Step) → (cache : Cache) → Decidable (UnhinderedThroughout steps cache)
  | [], _ => isTrue trivial
  | first :: rest, cache =>
    @instDecidableAnd _ _ (inferInstanceAs (Decidable (first.IsUnhindered cache)))
      (unhinderedThroughoutDecidable rest (cache.step first))

instance (steps : List Step) (cache : Cache) : Decidable (UnhinderedThroughout steps cache) :=
  unhinderedThroughoutDecidable steps cache

/-- The invariant of a cache in such runs. -/
structure Frugal (cache : Cache) : Prop extends Sound cache where
  noOrphans : cache.orphans = []
  fits : cache.total ≤ cache.budget ∨ cache.count = 1

private theorem frugal_empty (budget : Nat) (keepsFolder : Bool) :
    (empty budget keepsFolder).Frugal where
  toSound := sound_empty budget keepsFolder
  noOrphans := rfl
  fits := Or.inl (Nat.zero_le _)

namespace Frugal

private theorem of_sameBooks (frugal : cache.Frugal) (sound : after.Sound)
    (same : cache.SameBooks after) : after.Frugal where
  toSound := sound
  noOrphans := same.orphans.trans frugal.noOrphans
  fits := by
    have count : after.count = cache.count := same.entries.length_eq
    rw [same.total, same.budget, count]
    exact frugal.fits

/-- When room has been made, no file is left that could not be unlinked. -/
theorem evict_noOrphans (frugal : cache.Frugal) {serial : Nat}
    (renamed : cache.folder.rename (.temporary serial) (.stored fingerprint) = .ok folder)
    (yielding : ∀ entry ∈ cache.entries, ¬ cache.folder.Refuses entry.file) (size : Nat) :
    ((cache.enter folder fingerprint size).evict fingerprint).orphans = [] := by
  refine (evict_of_yielding ?_ ?_).1
  · intro entry member different
    rw [enter_entries] at member
    rw [enter_folder]
    rcases List.mem_cons.mp member with rfl | before
    · exact absurd rfl different
    · have notTarget : entry.file ≠ .stored fingerprint :=
        fun same => different (FileName.stored.inj same)
      rw [Folder.refuses_rename_of_ne renamed FileName.noConfusion notTarget]
      exact yielding entry before
  · exact enter_orphans frugal.noOrphans folder fingerprint size

private theorem step (frugal : cache.Frugal) {taken : Step}
    (unhindered : taken.IsUnhindered cache) :
    (cache.step taken).Frugal := by
  have sound := frugal.toSound.step taken
  rcases step_cases cache taken with
    same | ⟨fingerprint, serial, folder, size, rfl, absent, renamed, _, stepped⟩
  · exact frugal.of_sameBooks sound same
  · obtain ⟨unheld, yielding⟩ := unhindered
    rw [stepped] at sound ⊢
    refine ⟨sound, frugal.evict_noOrphans renamed yielding size, ?_⟩
    show ((cache.enter folder fingerprint size).evict fingerprint).total ≤
      ((cache.enter folder fingerprint size).evict fingerprint).budget ∨ _
    rw [evict_budget, enter_budget]
    refine (frugal.fits_evict absent folder size).imp_right fun held => ?_
    -- Without handles only the new entry can be left.
    have alike : ∀ other ∈ ((cache.enter folder fingerprint size).evict fingerprint).entries,
        other.fingerprint = fingerprint := by
      intro other member
      by_contra different
      have handle := held other member different
      rw [unheld] at handle
      exact List.not_mem_nil handle
    have alone := sound.entries_eq_singleton
      (nextEntry_mem_evict cache folder fingerprint size) alike
    exact congrArg List.length alone

private theorem run (frugal : cache.Frugal) {steps : List Step}
    (unhindered : UnhinderedThroughout steps cache) : (Cache.run steps cache).Frugal := by
  induction steps generalizing cache with
  | nil => exact frugal
  | cons first rest inductionHypothesis =>
    exact inductionHypothesis (frugal.step unhindered.1) unhindered.2

/-- A cache over its budget has one entry, which is larger than the budget by
itself. -/
theorem eq_singleton (frugal : cache.Frugal) (exceeded : ¬ cache.total ≤ cache.budget) :
    ∃ entry, cache.entries = [entry] ∧ entry.size = cache.total := by
  obtain ⟨entry, alone⟩ := List.length_eq_one_iff.mp (frugal.fits.resolve_left exceeded)
  refine ⟨entry, alone, ?_⟩
  have counted := frugal.balanced.counted
  rw [alone, frugal.noOrphans] at counted
  simpa using counted.symm

end Frugal

/-- Whatever has happened to a cache and its folder, and whichever files cannot be
unlinked: an insertion under a name that is not cached evicts in rounds, of which
there are no more than entries, until no round is left; the new entry is cached
then, and the cache is within its budget or a handle is held on every other
entry.  In a run in which no handle is held when a file is inserted, and the
files of all entries can be unlinked, the cache is always within its budget, or
it has one entry, which alone is larger. -/
theorem insertion_makes_room :
    (∀ (budget : Nat) (keepsFolder : Bool) (history : List Step) (fingerprint : Fingerprint)
      (serial : Nat) (entry : Entry) (cache after : Cache),
      run history (empty budget keepsFolder) = cache →
      cache.find? fingerprint = none →
      cache.insert fingerprint (.temporary serial) = (.ok entry, after) →
      (∃ folder entered evicted count,
        cache.folder.rename (.temporary serial) (.stored fingerprint) = .ok folder ∧
        entered = cache.enter folder fingerprint (cache.folder.sizeOf (.temporary serial)) ∧
        count ≤ entered.count ∧
        rounds? fingerprint count entered.retryOrphans = some evicted ∧
        evictOne? fingerprint evicted = none ∧ after = evicted.hold entry) ∧
      after.find? fingerprint = some entry ∧
      (after.total ≤ budget ∨
        ∀ other ∈ after.entries, other.fingerprint ≠ fingerprint → other ∈ after.held)) ∧
    ∀ (budget : Nat) (keepsFolder : Bool) (history : List Step) (cache : Cache),
      run history (empty budget keepsFolder) = cache →
      UnhinderedThroughout history (empty budget keepsFolder) →
      cache.total ≤ budget ∨
        ∃ entry, cache.entries = [entry] ∧ entry.size = cache.total ∧ budget < entry.size := by
  constructor
  · intro budget keepsFolder history fingerprint serial entry cache after reached absent inserted
    have sound : cache.Sound := by
      rw [← reached]
      exact sound_run_empty budget keepsFolder history
    have within : cache.budget = budget := by
      rw [← reached, run_budget]
      rfl
    have soundAfter := sound.insert fingerprint (.temporary serial)
    rcases insert_cases cache fingerprint (.temporary serial) with
      ⟨other, found, done⟩ | ⟨kind, _, done⟩ | ⟨folder, size, _, renamed, rfl, done⟩ <;>
    rw [done] at inserted soundAfter
    · rw [absent] at found
      exact absurd found (by simp)
    · exact absurd (Prod.mk.inj inserted).1 (by simp)
    · obtain ⟨given, rfl⟩ := Prod.mk.inj inserted
      obtain rfl := Except.ok.inj given
      obtain ⟨count, few, looped, ended⟩ :=
        (sound.enter absent folder _).exists_rounds fingerprint
      refine ⟨⟨folder, _, _, count, renamed, rfl, few, looped, ended, rfl⟩, ?_, ?_⟩
      · exact (soundAfter.find?_eq_some_iff fingerprint).mpr
          ⟨nextEntry_mem_evict cache folder fingerprint _, rfl⟩
      · rw [← within]
        refine (sound.fits_evict absent folder _).imp_right ?_
        intro held other member different
        have before : other ∈
            ((cache.enter folder fingerprint
              (cache.folder.sizeOf (.temporary serial))).evict fingerprint).held := by
          rw [evict_held, enter_held]
          exact held other member different
        exact List.mem_cons_of_mem _ before
  · intro budget keepsFolder history cache reached unhindered
    have frugal : cache.Frugal := by
      rw [← reached]
      exact (frugal_empty budget keepsFolder).run unhindered
    have within : cache.budget = budget := by
      rw [← reached, run_budget]
      rfl
    by_cases fits : cache.total ≤ budget
    · exact Or.inl fits
    · obtain ⟨entry, alone, whole⟩ := frugal.eq_singleton (by rwa [within])
      exact Or.inr ⟨entry, alone, whole, by omega⟩

/-! ### A held entry, an entry that cannot be unlinked, and one that is too large -/

/-- A handle is held on the first of two entries, and the file of the second
cannot be unlinked when a third one is to be inserted. -/
def crowd : List Step :=
  [.act .create, .act (.fill 1 [1, 1]), .act (.insert (repeated 0) 1),
    .act .create, .act (.fill 1 [2, 2]), .act (.insert (repeated 1) 1),
    .act (.drop ⟨1, repeated 1, 2⟩), .lock [.stored (repeated 1)],
    .act .create, .act (.fill 1 [3, 3])]

/-- Files are inserted one after the other, the first of them twice, and the last
of them is larger than the budget. -/
def procession : List Step :=
  [.act .create, .act (.fill 1 [1, 1]), .act (.insert (repeated 0) 1),
    .act (.drop ⟨0, repeated 0, 2⟩),
    .act .create, .act (.fill 1 [1, 1]), .act (.insert (repeated 0) 1),
    .act (.drop ⟨0, repeated 0, 2⟩),
    .act .create, .act (.fill 1 [2, 2]), .act (.insert (repeated 1) 1),
    .act (.drop ⟨1, repeated 1, 2⟩),
    .act .create, .act (.fill 1 [3, 3, 3, 3, 3]), .act (.insert (repeated 2) 1),
    .act (.drop ⟨2, repeated 2, 5⟩)]

theorem crowd_and_procession_make_room :
    ((run crowd (empty 3 false)).find? (repeated 2) = none ∧
      ((run crowd (empty 3 false)).insert (repeated 2) (.temporary 1)).1 =
        .ok ⟨2, repeated 2, 2⟩ ∧
      ¬ ((run crowd (empty 3 false)).insert (repeated 2) (.temporary 1)).2.total ≤ 3 ∧
      ∀ other ∈ ((run crowd (empty 3 false)).insert (repeated 2) (.temporary 1)).2.entries,
        other.fingerprint ≠ repeated 2 →
          other ∈ ((run crowd (empty 3 false)).insert (repeated 2) (.temporary 1)).2.held) ∧
    UnhinderedThroughout procession (empty 3 false) ∧
    ∃ entry, (run procession (empty 3 false)).entries = [entry] ∧
      entry.size = (run procession (empty 3 false)).total ∧ 3 < entry.size := by
  have absent : (run crowd (empty 3 false)).find? (repeated 2) = none := by decide +kernel
  have given : ((run crowd (empty 3 false)).insert (repeated 2) (.temporary 1)).1 =
      .ok ⟨2, repeated 2, 2⟩ := by
    decide +kernel
  have above : ¬ ((run crowd (empty 3 false)).insert (repeated 2) (.temporary 1)).2.total ≤ 3 := by
    decide +kernel
  have unhindered : UnhinderedThroughout procession (empty 3 false) := by decide +kernel
  have tooLarge : ¬ (run procession (empty 3 false)).total ≤ 3 := by decide +kernel
  obtain ⟨_, _, fits⟩ := insertion_makes_room.1 3 false crowd (repeated 2) 1 ⟨2, repeated 2, 2⟩
    _ _ rfl absent (Prod.ext given rfl)
  have alone := insertion_makes_room.2 3 false procession _ rfl unhindered
  exact ⟨⟨absent, given, above, fits.resolve_left above⟩, unhindered, alone.resolve_left tooLarge⟩

end ContentStore.Cache
