import ContentStore.Proofs.Cache.Run
import ContentStore.Proofs.Fingerprint
import ContentStore.Text.Decimal

/-!
Contract: the books of a cache in 64-bit words.

Owns:
- the operations of a cache as they go when the total is a word: each of them
  gives nothing as soon as the total would leave its word, whichever way;
- `run?_eq`, by which no run gives nothing as long as the sizes that are inserted
  fit one word together;
- that the total is what all entries and orphans count, under distinct names.

Does not own: the numbers that a cache shows to others.
-/

namespace ContentStore.Cache

open Fingerprint (repeated)
open Text.Decimal (words64)

variable {cache after : Cache} {entry : Entry} {fingerprint keep : Fingerprint}
  {aside order : List Entry} {total size issued : Nat}

/-! ## Operations on words -/

def withdraw? (total size : Nat) : Option Nat :=
  if size ≤ total then some (total - size) else none

def deposit? (total size : Nat) : Option Nat :=
  if total + size < words64 then some (total + size) else none

def dispose? (cache : Cache) (entry : Entry) : Option Cache :=
  match cache.folder.clear? entry.file with
  | some folder =>
    (withdraw? cache.total entry.size).map fun total =>
      { cache with folder := folder, total := total }
  | none => some { cache with orphans := cache.orphans ++ [entry] }

def retryOrphans? (cache : Cache) : Option Cache :=
  if cache.total ≤ cache.budget then some cache
  else cache.orphans.foldlM dispose? { cache with orphans := [] }

def evictInOrder? (keep : Fingerprint) : List Entry → Cache → Option Cache
  | [], cache => some cache
  | entry :: later, cache =>
    if cache.total ≤ cache.budget then some cache
    else if entry.fingerprint = keep ∨ entry ∈ cache.held then evictInOrder? keep later cache
    else
      (dispose? { cache with entries := cache.entries.erase entry } entry).bind
        (evictInOrder? keep later)

def evict? (keep : Fingerprint) (cache : Cache) : Option Cache :=
  cache.retryOrphans?.bind fun retried => evictInOrder? keep retried.entries.reverse retried

def forgetOrphan? (cache : Cache) (fingerprint : Fingerprint) : Option Cache :=
  match cache.orphans.find? fun orphan => orphan.fingerprint = fingerprint with
  | some orphan =>
    (withdraw? cache.total orphan.size).map fun total =>
      { cache with orphans := cache.orphans.erase orphan, total := total }
  | none => some cache

def add? (cache : Cache) (fingerprint : Fingerprint) (size : Nat) : Option (Entry × Cache) :=
  (deposit? cache.total size).map fun total =>
    let entry : Entry := ⟨cache.issued, fingerprint, size⟩
    (entry, { cache with
      entries := entry :: cache.entries
      total := total
      issued := cache.issued + 1 })

def insert? (cache : Cache) (fingerprint : Fingerprint) (temporary : FileName) :
    Option (Except IoKind Entry × Cache) :=
  match cache.find? fingerprint with
  | some entry =>
    some (.ok entry,
      { (cache.refresh entry).hold entry with folder := cache.folder.discard temporary })
  | none =>
    match cache.folder.rename temporary (.stored fingerprint) with
    | .error kind => some (.error kind, { cache with folder := cache.folder.discard temporary })
    | .ok folder => do
      let forgotten ← { cache with folder := folder }.forgetOrphan? fingerprint
      let (entry, added) ← forgotten.add? fingerprint (cache.folder.sizeOf temporary)
      let evicted ← added.evict? fingerprint
      return (.ok entry, evicted.hold entry)

/-- A step of a cache whose total is a word.  Only insertions change the total. -/
def step? (cache : Cache) : Step → Option Cache
  | .act (.insert fingerprint serial) =>
    (cache.insert? fingerprint (.temporary serial)).map Prod.snd
  | taken => some (cache.step taken)

def run? : List Step → Cache → Option Cache
  | [], cache => some cache
  | first :: rest, cache => (cache.step? first).bind (run? rest)

/-- The size of the file that a step adds to the cache, if it adds one. -/
def Step.inserted (cache : Cache) : Step → Nat
  | .act (.insert fingerprint serial) =>
    match cache.find? fingerprint,
      cache.folder.rename (.temporary serial) (.stored fingerprint) with
    | none, .ok _ => cache.folder.sizeOf (.temporary serial)
    | _, _ => 0
  | _ => 0

/-- The sizes of all files that a run adds to the cache. -/
def inserted : List Step → Cache → Nat
  | [], _ => 0
  | first :: rest, cache => first.inserted cache + inserted rest (cache.step first)

/-! ## What leaves the books is counted by them -/

private theorem withdraw?_of_le (small : size ≤ total) :
    withdraw? total size = some (total - size) := by
  unfold withdraw?
  rw [if_pos small]

private theorem dispose?_eq (counted : entry.size ≤ cache.total) :
    cache.dispose? entry = some (cache.dispose entry) := by
  unfold dispose? dispose
  rw [withdraw?_of_le counted]
  cases cache.folder.clear? entry.file <;> rfl

private theorem foldlM_dispose?_eq
    (balanced : Balanced (aside ++ (cache.entries ++ cache.orphans)) cache.total cache.issued) :
    aside.foldlM dispose? cache = some (aside.foldl dispose cache) := by
  induction aside generalizing cache with
  | nil => rfl
  | cons entry rest inductionHypothesis =>
    have counted : entry.size ≤ cache.total := balanced.size_le List.mem_cons_self
    rw [List.foldlM_cons, List.foldl_cons, dispose?_eq counted]
    exact inductionHypothesis (balanced_dispose balanced)

private theorem Sound.retryOrphans?_eq (sound : cache.Sound) :
    cache.retryOrphans? = some cache.retryOrphans := by
  unfold retryOrphans? Cache.retryOrphans
  split
  · rfl
  · apply foldlM_dispose?_eq
    rw [List.append_nil]
    exact sound.balanced.of_perm List.perm_append_comm

/-- An eviction takes from the total only what its entries count, if each of them
is on the books and none comes twice. -/
theorem evictInOrder?_eq
    (balanced : Balanced (cache.entries ++ cache.orphans) cache.total cache.issued)
    (cached : ∀ entry ∈ order, entry ∈ cache.entries) (once : order.Nodup) :
    evictInOrder? keep order cache = some (evictInOrder keep order cache) := by
  induction order generalizing cache with
  | nil => rfl
  | cons entry later inductionHypothesis =>
    have onceLater := (List.nodup_cons.mp once).2
    have cachedLater : ∀ other ∈ later, other ∈ cache.entries :=
      fun other member => cached other (List.mem_cons_of_mem _ member)
    unfold evictInOrder? evictInOrder
    by_cases fits : cache.total ≤ cache.budget
    · rw [if_pos fits, if_pos fits]
    · rw [if_neg fits, if_neg fits]
      by_cases spared : entry.fingerprint = keep ∨ entry ∈ cache.held
      · rw [if_pos spared, if_pos spared]
        exact inductionHypothesis balanced cachedLater onceLater
      · rw [if_neg spared, if_neg spared]
        have member := cached entry List.mem_cons_self
        have counted := balanced.size_le (List.mem_append_left _ member)
        have countedWithout : entry.size ≤
            ({ cache with entries := cache.entries.erase entry } : Cache).total := counted
        rw [dispose?_eq countedWithout]
        have aside : Balanced ([entry] ++ (cache.entries.erase entry ++ cache.orphans))
            cache.total cache.issued :=
          balanced.of_perm ((List.perm_cons_erase member).append_right _)
        apply inductionHypothesis
        · exact @balanced_dispose { cache with entries := cache.entries.erase entry } entry []
            aside
        · -- An entry that comes later is another one, so that it is still cached.
          intro other among
          have different : other ≠ entry := by
            rintro rfl
            exact (List.nodup_cons.mp once).1 among
          have kept : other ∈ cache.entries.erase entry :=
            (List.mem_erase_of_ne different).mpr (cachedLater other among)
          rw [dispose_eq]
          split <;> exact kept
        · exact onceLater

private theorem Sound.evict?_eq (sound : cache.Sound) (keep : Fingerprint) :
    cache.evict? keep = some (cache.evict keep) := by
  unfold evict? Cache.evict
  rw [sound.retryOrphans?_eq]
  have retried := sound.retryOrphans
  apply evictInOrder?_eq retried.balanced
  · intro entry member
    exact List.mem_reverse.mp member
  · exact List.nodup_reverse.mpr retried.entries_nodup

private theorem Sound.forgetOrphan?_eq (sound : cache.Sound) (fingerprint : Fingerprint) :
    cache.forgetOrphan? fingerprint = some (cache.forgetOrphan fingerprint) := by
  unfold forgetOrphan? Cache.forgetOrphan
  cases found : cache.orphans.find? fun orphan => orphan.fingerprint = fingerprint with
  | none => rfl
  | some orphan =>
    have orphaned := List.mem_of_find?_eq_some found
    have counted := sound.balanced.size_le (List.mem_append_right _ orphaned)
    simp only [withdraw?_of_le counted, Option.map_some]

private theorem add?_eq (fits : cache.total + size < words64) :
    cache.add? fingerprint size = some (cache.add fingerprint size) := by
  unfold add? add deposit?
  rw [if_pos fits]
  rfl

/-! ## How much the total grows -/

private theorem dispose_total_le (cache : Cache) (entry : Entry) :
    (cache.dispose entry).total ≤ cache.total := by
  rw [dispose_eq]
  split
  · exact Nat.le_refl _
  · exact Nat.sub_le _ _

private theorem foldl_dispose_total_le (aside : List Entry) (cache : Cache) :
    (aside.foldl dispose cache).total ≤ cache.total := by
  induction aside generalizing cache with
  | nil => exact Nat.le_refl _
  | cons entry rest inductionHypothesis =>
    rw [List.foldl_cons]
    exact Nat.le_trans (inductionHypothesis _) (dispose_total_le cache entry)

private theorem evict_total_le (keep : Fingerprint) (cache : Cache) :
    (cache.evict keep).total ≤ cache.total := by
  obtain ⟨victims, _, _, evicted⟩ := evict_eq keep cache
  have retried : cache.retryOrphans.total ≤ cache.total := by
    rcases retryOrphans_eq cache with same | retried
    · exact Nat.le_of_eq (congrArg Cache.total same)
    · rw [retried]
      exact foldl_dispose_total_le cache.orphans _
  rw [evicted]
  exact Nat.le_trans (foldl_dispose_total_le victims _) retried

private theorem forgetOrphan_total_le (cache : Cache) (fingerprint : Fingerprint) :
    (cache.forgetOrphan fingerprint).total ≤ cache.total := by
  rcases forgetOrphan_eq cache fingerprint with ⟨orphan, _, _, forgotten⟩ | ⟨_, forgotten⟩
  · rw [forgotten]
    exact Nat.sub_le _ _
  · exact Nat.le_of_eq (congrArg Cache.total forgotten)

private theorem step_total_le (cache : Cache) (taken : Step) :
    (cache.step taken).total ≤ cache.total + taken.inserted cache := by
  rcases step_cases cache taken with
    same | ⟨fingerprint, serial, folder, size, rfl, absent, renamed, told, stepped⟩
  · rw [same.total]
    exact Nat.le_add_right _ _
  · have added : (cache.enter folder fingerprint size).total ≤ cache.total + size :=
      Nat.add_le_add_right
        (forgetOrphan_total_le { cache with folder := folder } fingerprint) size
    have evicted := evict_total_le fingerprint (cache.enter folder fingerprint size)
    have counted : Step.inserted cache (.act (.insert fingerprint serial)) = size := by
      simp only [Step.inserted, absent, renamed]
      exact told.symm
    rw [stepped, counted]
    exact Nat.le_trans evicted added

/-! ## Steps and runs -/

private theorem Sound.insert?_eq (sound : cache.Sound) {serial : Nat}
    (fits : cache.total + Step.inserted cache (.act (.insert fingerprint serial)) < words64) :
    cache.insert? fingerprint (.temporary serial) =
      some (cache.insert fingerprint (.temporary serial)) := by
  unfold insert? Cache.insert
  simp only [Step.inserted] at fits
  cases found : cache.find? fingerprint with
  | some entry => rfl
  | none =>
    cases renamed : cache.folder.rename (.temporary serial) (.stored fingerprint) with
    | error kind => rfl
    | ok folder =>
      simp only [found, renamed] at fits
      have fewer := forgetOrphan_total_le { cache with folder := folder } fingerprint
      have room : ({ cache with folder := folder }.forgetOrphan fingerprint).total +
          cache.folder.sizeOf (.temporary serial) < words64 :=
        Nat.lt_of_le_of_lt (Nat.add_le_add_right fewer _) fits
      have forgotten := (sound.withFolder folder).forgetOrphan?_eq fingerprint
      have evicted := (sound.enter found folder
        (cache.folder.sizeOf (.temporary serial))).evict?_eq fingerprint
      simp only [Cache.enter] at evicted
      simp only [forgotten, add?_eq room, evicted, Option.bind_eq_bind, Option.bind_some,
        Option.pure_def]

/-- A step goes on words as it goes on numbers, if what it adds fits. -/
theorem Sound.step?_eq (sound : cache.Sound) (taken : Step)
    (fits : cache.total + taken.inserted cache < words64) :
    cache.step? taken = some (cache.step taken) := by
  cases taken with
  | lock names => rfl
  | alter folder => rfl
  | act action =>
    cases action with
    | insert fingerprint serial =>
      simp only [step?]
      rw [sound.insert?_eq fits]
      rfl
    | _ => rfl

theorem Sound.run?_eq (sound : cache.Sound) (steps : List Step)
    (fits : cache.total + inserted steps cache < words64) :
    run? steps cache = some (Cache.run steps cache) := by
  induction steps generalizing cache with
  | nil => rfl
  | cons first rest inductionHypothesis =>
    simp only [inserted] at fits
    have grown := step_total_le cache first
    unfold run? Cache.run
    rw [sound.step?_eq first (by omega)]
    exact inductionHypothesis (sound.step first) (by omega)

/-- In every state that a cache reaches, whatever others make of its folder, the
total is what all entries and orphans count, and no two of these have files of
one name.  If the sizes that are inserted fit one word together, the run goes on
words as it goes on numbers: no total ever falls below zero or leaves its
word. -/
theorem total_counts_entries_and_orphans (budget : Nat) (keepsFolder : Bool)
    (history : List Step) (small : inserted history (empty budget keepsFolder) < words64)
    (cache : Cache) (reached : run history (empty budget keepsFolder) = cache) :
    cache.total = (cache.entries.map Entry.size).sum + (cache.orphans.map Entry.size).sum ∧
      ((cache.entries ++ cache.orphans).map Entry.file).Nodup ∧
      run? history (empty budget keepsFolder) = some cache := by
  have sound : cache.Sound := by
    rw [← reached]
    exact sound_run_empty budget keepsFolder history
  refine ⟨?_, ?_, ?_⟩
  · rw [sound.balanced.counted, List.map_append, List.sum_append]
  · have distinct := sound.balanced.distinct
    have files : (cache.entries ++ cache.orphans).map Entry.file =
        ((cache.entries ++ cache.orphans).map Entry.fingerprint).map FileName.stored := by
      rw [List.map_map]
      rfl
    rw [files]
    exact distinct.map fun _ _ same => FileName.stored.inj same
  · have total : (empty budget keepsFolder).total = 0 := rfl
    rw [(sound_empty budget keepsFolder).run?_eq history (by omega), reached]

/-! ### Sizes that go from entries to orphans and back -/

/-- An orphan's name is inserted again, two entries become orphans at once, and
only one of these can be unlinked when orphans are tried again. -/
def renewal : List Step :=
  [.act .create, .act (.fill 1 [1, 1]), .act (.insert (repeated 0) 1),
    .act (.drop ⟨0, repeated 0, 2⟩), .lock [.stored (repeated 0)],
    .act .create, .act (.fill 1 [2, 2]), .act (.insert (repeated 1) 1),
    .act (.drop ⟨1, repeated 1, 2⟩), .lock [],
    .act .create, .act (.fill 1 [3]), .act (.insert (repeated 0) 1),
    .act (.drop ⟨2, repeated 0, 1⟩), .lock [.stored (repeated 0), .stored (repeated 1)],
    .act .create, .act (.fill 1 [4, 4, 4]), .act (.insert (repeated 2) 1),
    .act (.drop ⟨3, repeated 2, 3⟩), .lock [.stored (repeated 0)],
    .act .create, .act (.fill 1 [5]), .act (.insert (repeated 3) 1)]

theorem total_counts_renewed_entries :
    inserted renewal (empty 3 false) < words64 ∧
      (run renewal (empty 3 false)).entries = [⟨4, repeated 3, 1⟩] ∧
      (run renewal (empty 3 false)).orphans = [⟨2, repeated 0, 1⟩] ∧
      (run renewal (empty 3 false)).total = 2 ∧
      run? renewal (empty 3 false) = some (run renewal (empty 3 false)) := by
  have small : inserted renewal (empty 3 false) < words64 := by decide +kernel
  have entries : (run renewal (empty 3 false)).entries = [⟨4, repeated 3, 1⟩] := by
    decide +kernel
  have orphans : (run renewal (empty 3 false)).orphans = [⟨2, repeated 0, 1⟩] := by
    decide +kernel
  obtain ⟨counted, _, onWords⟩ :=
    total_counts_entries_and_orphans 3 false renewal small _ rfl
  rw [entries, orphans] at counted
  exact ⟨small, entries, orphans, counted, onWords⟩

end ContentStore.Cache
