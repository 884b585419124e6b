import ContentStore.Proofs.Cache.Run

/-!
Contract: when the entries of a cache were last used.

Owns:
- `Step.use?`, the fingerprint that a step uses, and `uses`, those that a run
  uses, one after the other;
- `age`, how many uses there have been since the last use of a fingerprint;
- `Recent`, by which entries have been used and stand with the last used one
  first, and that the entries of a cache do so after every run.

Does not own: which entries an eviction takes.
-/

namespace ContentStore.Cache

variable {cache : Cache} {entry : Entry} {entries rest : List Entry} {keep : Fingerprint}
  {before : List Fingerprint}

/-! ### Uses -/

/-- The fingerprint that a step uses: the one under which a file is inserted,
whether it was cached before or not, or the one of an entry that is found. -/
def Step.use? (cache : Cache) : Step → Option Fingerprint
  | .act (.insert fingerprint serial) =>
    match (cache.insert fingerprint (.temporary serial)).1 with
    | .ok _ => some fingerprint
    | .error _ => none
  | .act (.lookUp fingerprint) => if cache.contains fingerprint then some fingerprint else none
  | _ => none

/-- The fingerprints that a run uses, earliest first. -/
def uses : List Step → Cache → List Fingerprint
  | [], _ => []
  | first :: rest, cache => (first.use? cache).toList ++ uses rest (cache.step first)

/-- How many uses there have been since the last use of a fingerprint. -/
def age (uses : List Fingerprint) (fingerprint : Fingerprint) : Nat :=
  uses.reverse.idxOf fingerprint

private theorem age_append_self (uses : List Fingerprint) (fingerprint : Fingerprint) :
    age (uses ++ [fingerprint]) fingerprint = 0 := by
  rw [age, List.reverse_concat, List.idxOf_cons_self]

/-- A fingerprint ages whenever another one is used. -/
theorem age_append_of_ne (uses : List Fingerprint) {fingerprint other : Fingerprint}
    (different : other ≠ fingerprint) :
    age (uses ++ [fingerprint]) other = age uses other + 1 := by
  rw [age, List.reverse_concat, List.idxOf_cons_ne _ different.symm, age]

/-! ### Entries in the order of their last uses -/

/-- All entries have been used, and they stand with the last used one first. -/
structure Recent (uses : List Fingerprint) (entries : List Entry) : Prop where
  used : ∀ entry ∈ entries, entry.fingerprint ∈ uses
  ordered : entries.Pairwise fun left right =>
    age uses left.fingerprint < age uses right.fingerprint

namespace Recent

private theorem nil (uses : List Fingerprint) : Recent uses [] :=
  ⟨by simp, List.Pairwise.nil⟩

theorem sublist (recent : Recent before entries) (some_of : rest.Sublist entries) :
    Recent before rest :=
  ⟨fun entry member => recent.used entry (some_of.subset member), recent.ordered.sublist some_of⟩

/-- An entry that is used goes before all others. -/
theorem cons (recent : Recent before rest)
    (different : ∀ other ∈ rest, other.fingerprint ≠ entry.fingerprint) :
    Recent (before ++ [entry.fingerprint]) (entry :: rest) where
  used := by
    intro other member
    rcases List.mem_cons.mp member with rfl | later
    · exact List.mem_append_right _ List.mem_cons_self
    · exact List.mem_append_left _ (recent.used other later)
  ordered := by
    apply List.pairwise_cons.mpr
    constructor
    · intro other member
      rw [age_append_self, age_append_of_ne _ (different other member)]
      exact Nat.succ_pos _
    · apply recent.ordered.imp_of_mem
      intro left right leftMember rightMember younger
      rw [age_append_of_ne _ (different left leftMember),
        age_append_of_ne _ (different right rightMember)]
      exact Nat.succ_lt_succ younger

end Recent

/-- Making room leaves the entries that stay in their order. -/
theorem evict_entries_sublist (keep : Fingerprint) (cache : Cache) :
    (cache.evict keep).entries.Sublist cache.entries := by
  obtain ⟨victims, _, _, evicted⟩ := evict_eq keep cache
  rw [evicted, foldl_dispose_entries]
  exact List.diff_sublist _ _

/-- Using an entry that is cached puts it first. -/
theorem Sound.recent_refresh (sound : cache.Sound) (recent : Recent before cache.entries)
    (member : entry ∈ cache.entries) :
    Recent (before ++ [entry.fingerprint]) (cache.refresh entry).entries := by
  apply (recent.sublist List.erase_sublist).cons
  intro other among same
  have otherMember := List.mem_of_mem_erase among
  rw [sound.eq_of_fingerprint otherMember member same] at among
  exact sound.entries_nodup.not_mem_erase among

/-- Every step leaves the entries in the order of their last uses. -/
theorem Sound.recent_step (sound : cache.Sound) (recent : Recent before cache.entries)
    (taken : Step) :
    Recent (before ++ (taken.use? cache).toList) (cache.step taken).entries := by
  have unused : Recent (before ++ []) cache.entries := by rwa [List.append_nil]
  cases taken with
  | lock names => exact unused
  | alter folder => exact unused
  | act action =>
    cases action with
    | insert fingerprint serial =>
      simp only [Step.use?, Cache.step, Cache.perform]
      rcases insert_cases cache fingerprint (.temporary serial) with
        ⟨entry, found, inserted⟩ | ⟨kind, absent, inserted⟩ |
          ⟨folder, size, absent, renamed, _, inserted⟩ <;>
      rw [inserted]
      · have cached := (sound.find?_eq_some_iff fingerprint).mp found
        rw [← cached.2]
        exact sound.recent_refresh recent cached.1
      · exact unused
      · have isNew : ∀ other ∈ cache.entries,
            other.fingerprint ≠ (cache.nextEntry fingerprint size).fingerprint :=
          (find?_eq_none_iff fingerprint).mp absent
        have entered := recent.cons isNew
        rw [← enter_entries cache folder fingerprint size] at entered
        exact entered.sublist (evict_entries_sublist fingerprint _)
    | lookUp fingerprint =>
      simp only [Step.use?, Cache.step, Cache.perform]
      cases found : cache.find? fingerprint with
      | none =>
        have missed : cache.contains fingerprint = false := by simp [Cache.contains, found]
        rw [missed, get?_of_absent found]
        exact unused
      | some entry =>
        have hit : cache.contains fingerprint = true := by simp [Cache.contains, found]
        have cached := (sound.find?_eq_some_iff fingerprint).mp found
        rw [hit, get?_of_cached found, ← cached.2]
        exact sound.recent_refresh recent cached.1
    | clone entry =>
      simp only [Step.use?, Cache.step, Cache.perform]
      split <;> exact unused
    | _ => exact unused

/-- The entries of a cache are in the order of their last uses after every
run. -/
theorem Sound.recent_run (sound : cache.Sound) (recent : Recent before cache.entries)
    (steps : List Step) :
    Recent (before ++ uses steps cache) (Cache.run steps cache).entries := by
  induction steps generalizing cache before with
  | nil => rwa [uses, List.append_nil]
  | cons first rest inductionHypothesis =>
    rw [uses, ← List.append_assoc]
    exact inductionHypothesis (sound.step first) (sound.recent_step recent first)

theorem recent_run_empty (budget : Nat) (keepsFolder : Bool) (steps : List Step) :
    Recent (uses steps (empty budget keepsFolder)) (run steps (empty budget keepsFolder)).entries :=
  (sound_empty budget keepsFolder).recent_run (Recent.nil []) steps

end ContentStore.Cache
