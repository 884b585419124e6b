import ContentStore.Proofs.Bucket.Listing
import ContentStore.Proofs.Collector.Deletions

/-!
Contract: the objects of a bucket in memory, told apart by marks.

Owns:
- `Live`, by which the key or the entity tag of an object is marked, and that the
  collector goes by this;
- `deadKeys`, the keys of the other objects, and `kept`, what remains when these
  are deleted: the objects that are live, and ghosts;
- `tallyOf`, what a sweep counts, and that its counters are exact and add up where
  they fit into words;
- that neither depends on the order of the objects, nor on the order and
  repetition of the marks, and that what remains has nothing to delete but
  ghosts.

Does not own: which calls a sweep makes.
-/

namespace ContentStore.Collector

open Bucket (row left)
open ListedObject (totalSize totalSize_filter)

variable {marks again : List Fingerprint} {entry : String × StoredObject}
  {objects : List (String × StoredObject)}

/-! ## Objects that are live -/

/-- The key or the entity tag of an object is marked. -/
def Live (marks : List Fingerprint) (entry : String × StoredObject) : Prop :=
  ∃ fingerprint ∈ marks, fingerprint.text = entry.1 ∨ fingerprint.text = entry.2.etag

instance (marks : List Fingerprint) (entry : String × StoredObject) :
    Decidable (Live marks entry) :=
  inferInstanceAs (Decidable (∃ fingerprint ∈ marks, _))

private theorem live_congr (same : ∀ fingerprint, fingerprint ∈ again ↔ fingerprint ∈ marks) :
    Live again entry ↔ Live marks entry := by
  simp only [Live, same]

private theorem isLive_row (marks : List Fingerprint) (entry : String × StoredObject) :
    isLive marks (row entry) = decide (Live marks entry) := by
  rw [Bool.eq_iff_iff, isLive_iff, decide_eq_true_iff]
  rfl

theorem filter_isLive_rows (marks : List Fingerprint) (objects : List (String × StoredObject)) :
    (objects.map row).filter (isLive marks) = (objects.filter (Live marks ·)).map row := by
  simp only [List.filter_map, Function.comp_def, isLive_row]

theorem filter_not_isLive_rows (marks : List Fingerprint)
    (objects : List (String × StoredObject)) :
    ((objects.map row).filter fun object => !isLive marks object) =
      (objects.filter (¬ Live marks ·)).map row := by
  simp only [List.filter_map, Function.comp_def, isLive_row, decide_not]

/-- The keys of the objects that are not live. -/
def deadKeys (marks : List Fingerprint) (objects : List (String × StoredObject)) : List String :=
  (objects.filter (¬ Live marks ·)).map Prod.fst

theorem targets_rows (marks : List Fingerprint) (objects : List (String × StoredObject)) :
    targets marks true (objects.map row) = deadKeys marks objects := by
  rw [targets, if_pos rfl, filter_not_isLive_rows, List.map_map]
  rfl

/-- What a sweep counts in a bucket with some objects. -/
def tallyOf (marks : List Fingerprint) (objects : List (String × StoredObject)) : Tally :=
  Tally.of ((objects.filter (Live marks ·)).map row) ((objects.filter (¬ Live marks ·)).map row)

/-- What an undisturbed sweep leaves: the objects that are live, and ghosts. -/
def kept (marks : List Fingerprint) (objects : List (String × StoredObject)) :
    List (String × StoredObject) :=
  objects.filter fun entry => Live marks entry ∨ entry.2.isGhost

/-- With each key once, deletions of the objects in front that are not live leave
the objects behind as they are. -/
theorem left_deadKeys_append (marks : List Fingerprint)
    (front back : List (String × StoredObject)) (once : ((front ++ back).map Prod.fst).Nodup) :
    left (deadKeys marks front) (front ++ back) = kept marks front ++ back := by
  have onceFront : (front.map Prod.fst).Nodup := (List.nodup_append.mp (by simpa using once)).1
  have isDead {entry : String × StoredObject} (member : entry ∈ front) :
      entry.1 ∈ deadKeys marks front ↔ ¬ Live marks entry := by
    constructor
    · intro among
      obtain ⟨other, dead, sameKey⟩ := List.mem_map.mp among
      obtain ⟨present, notLive⟩ := List.mem_filter.mp dead
      rw [← List.inj_on_of_nodup_map onceFront present member sameKey]
      exact of_decide_eq_true notLive
    · intro notLive
      exact List.mem_map_of_mem (List.mem_filter.mpr ⟨member, decide_eq_true notLive⟩)
  rw [left, List.filter_append]
  congr 1
  · apply List.filter_congr
    intro entry member
    rw [decide_eq_decide, isDead member, not_not]
  · apply List.filter_eq_self.mpr
    intro entry behind
    refine decide_eq_true (Or.inl fun among => ?_)
    obtain ⟨other, dead, sameKey⟩ := List.mem_map.mp among
    have inFront := List.mem_map_of_mem (f := Prod.fst) (List.mem_of_mem_filter dead)
    rw [List.map_append] at once
    exact (List.nodup_append.mp once).2.2 other.1 inFront entry.1
      (List.mem_map_of_mem behind) sameKey

theorem left_deadKeys (once : (objects.map Prod.fst).Nodup) :
    left (deadKeys marks objects) objects = kept marks objects := by
  have whole := left_deadKeys_append marks objects [] (by rw [List.append_nil]; exact once)
  rw [List.append_nil, List.append_nil] at whole
  exact whole

/-! ### What does not matter -/

theorem tallyOf_congr (same : ∀ fingerprint, fingerprint ∈ again ↔ fingerprint ∈ marks)
    (objects : List (String × StoredObject)) : tallyOf again objects = tallyOf marks objects := by
  simp only [tallyOf, live_congr same]

theorem deadKeys_congr (same : ∀ fingerprint, fingerprint ∈ again ↔ fingerprint ∈ marks)
    (objects : List (String × StoredObject)) : deadKeys again objects = deadKeys marks objects := by
  simp only [deadKeys, live_congr same]

theorem kept_congr (same : ∀ fingerprint, fingerprint ∈ again ↔ fingerprint ∈ marks)
    (objects : List (String × StoredObject)) : kept again objects = kept marks objects := by
  simp only [kept, live_congr same]

theorem tallyOf_perm {others : List (String × StoredObject)} (perm : others.Perm objects)
    (marks : List Fingerprint) : tallyOf marks others = tallyOf marks objects :=
  Tally.of_perm ((perm.filter _).map row) ((perm.filter _).map row)

theorem kept_perm {others : List (String × StoredObject)} (perm : others.Perm objects)
    (marks : List Fingerprint) : (kept marks others).Perm (kept marks objects) :=
  perm.filter _

/-- An undisturbed sweep leaves nothing for another one. -/
theorem kept_kept (marks : List Fingerprint) (objects : List (String × StoredObject)) :
    kept marks (kept marks objects) = kept marks objects := by
  simp only [kept, List.filter_filter, Bool.and_self]

/-- Without ghosts, what an undisturbed sweep leaves is live. -/
theorem kept_of_solid (solid : ∀ entry ∈ objects, entry.2.isGhost = false)
    (marks : List Fingerprint) : kept marks objects = objects.filter (Live marks ·) := by
  apply List.filter_congr
  intro entry member
  simp [solid entry member]

theorem filter_dead_kept (solid : ∀ entry ∈ objects, entry.2.isGhost = false)
    (marks : List Fingerprint) : (kept marks objects).filter (¬ Live marks ·) = [] := by
  rw [kept_of_solid solid, List.filter_filter, List.filter_eq_nil_iff]
  simp

theorem tallyOf_kept (solid : ∀ entry ∈ objects, entry.2.isGhost = false)
    (marks : List Fingerprint) :
    tallyOf marks (kept marks objects) =
      { tallyOf marks objects with numCollected := 0, sizeCollected := 0 } := by
  have live : (kept marks objects).filter (Live marks ·) = objects.filter (Live marks ·) := by
    rw [kept_of_solid solid, List.filter_filter]
    simp only [Bool.and_self]
  rw [tallyOf, live, filter_dead_kept solid]
  rfl

/-! ## Counters -/

private theorem totalSize_live_add_dead (marks : List Fingerprint)
    (objects : List (String × StoredObject)) :
    totalSize ((objects.filter (Live marks ·)).map row) +
      totalSize ((objects.filter (¬ Live marks ·)).map row) = totalSize (objects.map row) := by
  rw [← filter_isLive_rows, ← filter_not_isLive_rows]
  exact totalSize_filter _ _

private theorem length_live_add_dead (marks : List Fingerprint)
    (objects : List (String × StoredObject)) :
    (objects.filter (Live marks ·)).length + (objects.filter (¬ Live marks ·)).length =
      objects.length := by
  simp only [decide_not]
  exact (List.length_eq_length_filter_add fun entry => decide (Live marks entry)).symm

theorem totalSize_rows_le {some all : List (String × StoredObject)} (sublist : some.Sublist all) :
    totalSize (some.map row) ≤ totalSize (all.map row) := by
  obtain ⟨others, perm⟩ := (sublist.map row).exists_perm_append
  rw [ListedObject.totalSize_perm perm, ListedObject.totalSize_append]
  exact Nat.le_add_right _ _

/-- Where the sizes fit into a word, the counted sizes are exact and add up. -/
theorem sizes_tallyOf (bounded : totalSize (objects.map row) < 2 ^ 64)
    (marks : List Fingerprint) :
    (tallyOf marks objects).sizeLive.toNat =
        totalSize ((objects.filter (Live marks ·)).map row) ∧
      (tallyOf marks objects).sizeCollected.toNat =
        totalSize ((objects.filter (¬ Live marks ·)).map row) ∧
      (tallyOf marks objects).sizeLive.toNat + (tallyOf marks objects).sizeCollected.toNat =
        totalSize (objects.map row) := by
  have sum := totalSize_live_add_dead marks objects
  have fits : Tally.Fits ((objects.filter (Live marks ·)).map row)
      ((objects.filter (¬ Live marks ·)).map row) := ⟨by omega, by omega⟩
  obtain ⟨live, dead⟩ := Tally.sizes_of fits
  exact ⟨live, dead, by rw [tallyOf, live, dead, sum]⟩

/-- Where the number of objects fits into a word, the counted numbers are exact
and add up. -/
theorem numbers_tallyOf (bounded : objects.length < 2 ^ 64) (marks : List Fingerprint) :
    (tallyOf marks objects).numLive.toNat = (objects.filter (Live marks ·)).length ∧
      (tallyOf marks objects).numCollected.toNat = (objects.filter (¬ Live marks ·)).length ∧
      (tallyOf marks objects).numLive.toNat + (tallyOf marks objects).numCollected.toNat =
        objects.length := by
  have sum := length_live_add_dead marks objects
  have few : ((objects.filter (Live marks ·)).map row).length +
      ((objects.filter (¬ Live marks ·)).map row).length < 2 ^ 64 := by
    rw [List.length_map, List.length_map, sum]
    exact bounded
  obtain ⟨live, dead⟩ := Tally.numbers_of few
  rw [List.length_map] at live dead
  exact ⟨live, dead, by rw [tallyOf, live, dead, sum]⟩

end ContentStore.Collector
