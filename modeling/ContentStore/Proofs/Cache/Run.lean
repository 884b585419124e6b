import ContentStore.Proofs.Cache.Operations

/-!
Contract: runs of a cache, in which callers and others take steps in any order.

Owns:
- `Action`, what callers do with a cache, and `Step`, which adds what others do
  to its folder;
- `run`, and that every run from a sound cache ends in a sound one;
- `step_cases`, by which a step either leaves the books as they were or inserts
  a file under a name that was not cached;
- that no action touches the file of an entry on which a handle is held.

An action that its caller could not take, such as cloning a handle that nobody
has, changes nothing.

Does not own: which steps a particular program takes.
-/

namespace ContentStore

/-- Write a temporary file anew, if there is one. -/
def Folder.fill (folder : Folder) (serial : Nat) (content : Bytes) : Folder :=
  if folder.item? (.temporary serial) = none then folder
  else folder.set (.temporary serial) (.file content)

namespace Cache

/-- What callers do with a cache.  They name a temporary file by its serial
number, and a handle by the entry that it is on. -/
inductive Action where
  /-- Create an empty temporary file. -/
  | create
  /-- Write a temporary file. -/
  | fill (serial : Nat) (content : Bytes)
  /-- Let go of a temporary file. -/
  | discard (serial : Nat)
  | insert (fingerprint : Fingerprint) (serial : Nat)
  | lookUp (fingerprint : Fingerprint)
  | ask (fingerprint : Fingerprint)
  /-- Take another handle where one is held. -/
  | clone (entry : Entry)
  /-- Let go of a handle. -/
  | drop (entry : Entry)
deriving DecidableEq

def perform (cache : Cache) : Action → Cache
  | .create => { cache with folder := (cache.folder.create []).2 }
  | .fill serial content => { cache with folder := cache.folder.fill serial content }
  | .discard serial => { cache with folder := cache.folder.discard (.temporary serial) }
  | .insert fingerprint serial => (cache.insert fingerprint (.temporary serial)).2
  | .lookUp fingerprint => (cache.get? fingerprint).2
  | .ask _ => cache
  | .clone entry => if entry ∈ cache.held then cache.hold entry else cache
  | .drop entry => cache.release entry

/-- What happens to a cache. -/
inductive Step where
  | act (action : Action)
  /-- From now on nothing under these names can be unlinked or renamed. -/
  | lock (names : List FileName)
  /-- Others make of the folder what they like. -/
  | alter (folder : Folder)

def step (cache : Cache) : Step → Cache
  | .act action => cache.perform action
  | .lock names => { cache with folder := { cache.folder with locked := names } }
  | .alter folder => { cache with folder := folder }

def run : List Step → Cache → Cache
  | [], cache => cache
  | first :: rest, cache => run rest (cache.step first)

variable {cache : Cache} {entry : Entry}

/-! ### Soundness -/

private theorem Sound.perform (sound : cache.Sound) (action : Action) :
    (cache.perform action).Sound := by
  cases action with
  | create => exact sound.withFolder _
  | fill serial content => exact sound.withFolder _
  | discard serial => exact sound.withFolder _
  | insert fingerprint serial => exact sound.insert fingerprint _
  | lookUp fingerprint => exact sound.get? fingerprint
  | ask fingerprint => exact sound
  | clone entry =>
    simp only [Cache.perform]
    split
    · rename_i held
      exact sound.hold (sound.pinned entry held)
    · exact sound
  | drop entry => exact sound.release entry

/-- Every step keeps a cache sound: the books say nothing of the folder. -/
theorem Sound.step (sound : cache.Sound) (taken : Step) : (cache.step taken).Sound := by
  cases taken with
  | act action => exact sound.perform action
  | lock names => exact sound.withFolder _
  | alter folder => exact sound.withFolder _

theorem Sound.run (sound : cache.Sound) (steps : List Step) : (run steps cache).Sound := by
  induction steps generalizing cache with
  | nil => exact sound
  | cons first rest inductionHypothesis => exact inductionHypothesis (sound.step first)

/-- Every run of a cache that began empty ends in a sound cache. -/
theorem sound_run_empty (budget : Nat) (keepsFolder : Bool) (steps : List Step) :
    (run steps (empty budget keepsFolder)).Sound :=
  (sound_empty budget keepsFolder).run steps

/-! ### What becomes of the books -/

/-- The same books, but for the order in which entries were used. -/
structure SameBooks (before after : Cache) : Prop where
  entries : after.entries.Perm before.entries
  orphans : after.orphans = before.orphans
  total : after.total = before.total
  budget : after.budget = before.budget

/-- A step leaves the books as they were, unless it inserts a file under a name
that was not cached. -/
theorem step_cases (cache : Cache) (taken : Step) :
    cache.SameBooks (cache.step taken) ∨
    ∃ fingerprint serial folder size,
      taken = .act (.insert fingerprint serial) ∧ cache.find? fingerprint = none ∧
      cache.folder.rename (.temporary serial) (.stored fingerprint) = .ok folder ∧
      size = cache.folder.sizeOf (.temporary serial) ∧
      cache.step taken = ((cache.enter folder fingerprint size).evict fingerprint).hold
        (cache.nextEntry fingerprint size) := by
  have refreshed {fingerprint : Fingerprint} {entry : Entry}
      (found : cache.find? fingerprint = some entry) :
      (cache.refresh entry).entries.Perm cache.entries :=
    (List.perm_cons_erase (List.mem_of_find?_eq_some found)).symm
  cases taken with
  | lock names => exact Or.inl ⟨List.Perm.refl _, rfl, rfl, rfl⟩
  | alter folder => exact Or.inl ⟨List.Perm.refl _, rfl, rfl, rfl⟩
  | act action =>
    cases action with
    | insert fingerprint serial =>
      simp only [Cache.step, Cache.perform]
      rcases insert_cases cache fingerprint (.temporary serial) with
        ⟨entry, found, inserted⟩ | ⟨kind, absent, inserted⟩ |
          ⟨folder, size, absent, renamed, told, inserted⟩ <;>
      rw [inserted]
      · exact Or.inl ⟨refreshed found, rfl, rfl, rfl⟩
      · exact Or.inl ⟨List.Perm.refl _, rfl, rfl, rfl⟩
      · exact Or.inr ⟨fingerprint, serial, folder, size, rfl, absent, renamed, told, rfl⟩
    | lookUp fingerprint =>
      simp only [Cache.step, Cache.perform]
      cases found : cache.find? fingerprint with
      | none =>
        rw [get?_of_absent found]
        exact Or.inl ⟨List.Perm.refl _, rfl, rfl, rfl⟩
      | some entry =>
        rw [get?_of_cached found]
        exact Or.inl ⟨refreshed found, rfl, rfl, rfl⟩
    | clone entry =>
      simp only [Cache.step, Cache.perform]
      split <;> exact Or.inl ⟨List.Perm.refl _, rfl, rfl, rfl⟩
    | _ => exact Or.inl ⟨List.Perm.refl _, rfl, rfl, rfl⟩

@[simp]
private theorem step_budget (cache : Cache) (taken : Step) :
    (cache.step taken).budget = cache.budget := by
  rcases step_cases cache taken with same | ⟨fingerprint, _, folder, size, _, _, _, _, stepped⟩
  · exact same.budget
  · rw [stepped]
    show ((cache.enter folder fingerprint size).evict fingerprint).budget = _
    rw [evict_budget, enter_budget]

@[simp]
theorem run_budget (steps : List Step) (cache : Cache) :
    (run steps cache).budget = cache.budget := by
  induction steps generalizing cache with
  | nil => rfl
  | cons first rest inductionHypothesis => rw [Cache.run, inductionHypothesis, step_budget]

/-! ### Entries on which a handle is held -/

/-- No action unlinks or replaces the file of an entry on which a handle is
held. -/
theorem Sound.item?_perform (sound : cache.Sound) (held : entry ∈ cache.held) (action : Action) :
    (cache.perform action).folder.item? entry.file = cache.folder.item? entry.file := by
  have temporary (serial : Nat) : entry.file ≠ .temporary serial := FileName.noConfusion
  cases action with
  | create => exact Folder.item?_set_of_ne _ _ (temporary _)
  | fill serial content =>
    simp only [Cache.perform, Folder.fill]
    split
    · rfl
    · exact Folder.item?_set_of_ne _ _ (temporary serial)
  | discard serial => exact Folder.item?_discard_of_ne _ (temporary serial)
  | insert fingerprint serial =>
    rcases sound.item?_insert (sound.mem_insert held fingerprint _) with
      ⟨_, kept⟩ | ⟨isNew, _, _⟩
    · exact kept
    · -- A new entry has a serial number that no entry had before.
      have numbered := sound.balanced.numbered entry
        (List.mem_append_left _ (sound.pinned entry held))
      rw [isNew] at numbered
      exact absurd numbered (Nat.lt_irrefl _)
  | lookUp fingerprint =>
    cases found : cache.find? fingerprint with
    | none => simp only [Cache.perform, get?_of_absent found]
    | some other =>
      simp only [Cache.perform, get?_of_cached found]
      rfl
  | clone other =>
    simp only [Cache.perform]
    split <;> rfl
  | _ => rfl

end Cache

end ContentStore
