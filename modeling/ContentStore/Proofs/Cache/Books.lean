import ContentStore.Cache
import ContentStore.Proofs.Folder
import Mathlib.Algebra.GroupWithZero.Nat
import Mathlib.Data.List.Nodup
import Mathlib.Data.List.Perm.Subperm

/-!
Contract: the books of a cache.

Owns:
- `Balanced`, the law of the books: no two entries share a name, the total is
  the sum of the sizes, and every serial number has been issued;
- `Balanced.withdraw` and `Balanced.deposit`, by which books stay balanced when
  an entry leaves or joins them with its size;
- `Cache.Sound`, the invariant of a cache: its entries and orphans are
  balanced, and an entry on which a handle is held is cached.

Does not own: which operations change the books.
-/

namespace ContentStore

/-! ## Balanced books -/

/-- The law of the books: `books` are all entries that count, `total` is what
they count, and `issued` is the number of entries there have been. -/
structure Balanced (books : List Entry) (total issued : Nat) : Prop where
  /-- No two entries have files of one name. -/
  distinct : (books.map Entry.fingerprint).Nodup
  counted : total = (books.map Entry.size).sum
  numbered : ∀ entry ∈ books, entry.serial < issued

namespace Balanced

variable {books others : List Entry} {entry other : Entry} {total issued : Nat}

/-- The order of the books does not matter. -/
theorem of_perm (balanced : Balanced books total issued) (permutation : books.Perm others) :
    Balanced others total issued where
  distinct := ((permutation.map _).nodup_iff).mp balanced.distinct
  counted := balanced.counted.trans (permutation.map _).sum_nat
  numbered := fun entry member => balanced.numbered entry (permutation.mem_iff.mpr member)

/-- Books stay balanced when an entry leaves them with its size. -/
theorem withdraw (balanced : Balanced (entry :: books) total issued) :
    Balanced books (total - entry.size) issued where
  distinct := (List.nodup_cons.mp balanced.distinct).2
  counted := by
    have counted := balanced.counted
    rw [List.map_cons, List.sum_cons] at counted
    omega
  numbered := fun other member => balanced.numbered other (List.mem_cons_of_mem _ member)

/-- Books stay balanced when an entry of a new name joins them. -/
theorem deposit (balanced : Balanced books total issued) {fingerprint : Fingerprint} (size : Nat)
    (absent : ∀ entry ∈ books, entry.fingerprint ≠ fingerprint) :
    Balanced (⟨issued, fingerprint, size⟩ :: books) (total + size) (issued + 1) where
  distinct := by
    rw [List.map_cons, List.nodup_cons]
    refine ⟨?_, balanced.distinct⟩
    intro member
    obtain ⟨entry, inBooks, same⟩ := List.mem_map.mp member
    exact absent entry inBooks same
  counted := by
    rw [List.map_cons, List.sum_cons, ← balanced.counted]
    exact Nat.add_comm _ _
  numbered := by
    intro entry member
    rcases List.mem_cons.mp member with rfl | old
    · exact Nat.lt_succ_self issued
    · exact Nat.lt_succ_of_lt (balanced.numbered entry old)

theorem eq_of_fingerprint (balanced : Balanced books total issued) (member : entry ∈ books)
    (otherMember : other ∈ books) (same : entry.fingerprint = other.fingerprint) :
    entry = other :=
  List.inj_on_of_nodup_map balanced.distinct member otherMember same

theorem nodup (balanced : Balanced books total issued) : books.Nodup :=
  List.Nodup.of_map _ balanced.distinct

theorem size_le (balanced : Balanced books total issued) (member : entry ∈ books) :
    entry.size ≤ total := by
  have counted := (balanced.of_perm (List.perm_cons_erase member)).counted
  rw [List.map_cons, List.sum_cons] at counted
  omega

end Balanced

namespace Cache

variable {cache : Cache} {entry other : Entry} {keep : Fingerprint} {name : FileName}

/-- An entry that is found under a fingerprint is cached, and has it. -/
theorem of_find?_eq_some {fingerprint : Fingerprint}
    (found : cache.find? fingerprint = some entry) :
    entry ∈ cache.entries ∧ entry.fingerprint = fingerprint :=
  ⟨List.mem_of_find?_eq_some found, by simpa using List.find?_some found⟩

/-- The invariant of a cache. -/
structure Sound (cache : Cache) : Prop where
  balanced : Balanced (cache.entries ++ cache.orphans) cache.total cache.issued
  /-- An entry on which a handle is held is cached. -/
  pinned : ∀ entry ∈ cache.held, entry ∈ cache.entries

/-- A cache without entries is sound. -/
theorem sound_empty (budget : Nat) (keepsFolder : Bool) : (empty budget keepsFolder).Sound where
  balanced := ⟨by simp [empty], by simp [empty], by simp [empty]⟩
  pinned := by simp [empty]

namespace Sound

theorem entries_nodup (sound : cache.Sound) : cache.entries.Nodup :=
  (List.nodup_append.mp sound.balanced.nodup).1

theorem eq_of_fingerprint (sound : cache.Sound) (member : entry ∈ cache.entries)
    (otherMember : other ∈ cache.entries) (same : entry.fingerprint = other.fingerprint) :
    entry = other :=
  sound.balanced.eq_of_fingerprint (List.mem_append_left _ member)
    (List.mem_append_left _ otherMember) same

/-- If all entries have one fingerprint, there is one. -/
theorem entries_eq_singleton (sound : cache.Sound) (member : entry ∈ cache.entries)
    (alike : ∀ other ∈ cache.entries, other.fingerprint = entry.fingerprint) :
    cache.entries = [entry] := by
  have same : ∀ other ∈ cache.entries, other = entry :=
    fun other among => sound.eq_of_fingerprint among member (alike other among)
  have once := sound.entries_nodup
  match entries : cache.entries with
  | [] => simp [entries] at member
  | [only] => rw [same only (by simp [entries])]
  | first :: second :: rest =>
    have equal : first = second :=
      (same first (by simp [entries])).trans (same second (by simp [entries])).symm
    simp [entries, equal] at once

theorem orphan_fingerprint_ne (sound : cache.Sound) (member : entry ∈ cache.entries)
    (orphan : other ∈ cache.orphans) : other.fingerprint ≠ entry.fingerprint := by
  intro same
  have apart := (List.nodup_append.mp sound.balanced.nodup).2.2
  exact apart entry member other orphan
    (sound.balanced.eq_of_fingerprint (List.mem_append_left _ member)
      (List.mem_append_right _ orphan) same.symm)

/-- The entry that is found under a fingerprint is the one that has it. -/
theorem find?_eq_some_iff (sound : cache.Sound) (fingerprint : Fingerprint) :
    cache.find? fingerprint = some entry ↔
      entry ∈ cache.entries ∧ entry.fingerprint = fingerprint := by
  constructor
  · exact of_find?_eq_some
  · rintro ⟨member, rfl⟩
    cases found : cache.find? entry.fingerprint with
    | none => exact absurd (List.find?_eq_none.mp found entry member) (by simp)
    | some other =>
      obtain ⟨otherMember, same⟩ := of_find?_eq_some found
      rw [sound.eq_of_fingerprint otherMember member same]

end Sound

/-- Nothing is found under a fingerprint that no entry has. -/
theorem find?_eq_none_iff (fingerprint : Fingerprint) :
    cache.find? fingerprint = none ↔ ∀ entry ∈ cache.entries, entry.fingerprint ≠ fingerprint := by
  simp [find?]

end Cache

end ContentStore
