import ContentStore.Proofs.Store.InHand

/-!
Contract: the handles of a store, whatever others make of its folder.

Owns:
- `Cache.Lends`, by which a cache is sound and certain handles are held on it, and
  what the operations make of these handles;
- `Step.LeavesBlank`, by which others let new files begin empty, and that the
  handles on a cache are those of the binaries in hand after every such run.

Does not own: what the files contain.
-/

namespace ContentStore

/-! ## Caches on which handles are held -/

namespace Cache

variable {cache : Cache} {handles others : List Entry} {entry : Entry} {folder : Folder}

/-- A sound cache on which these handles are held, and whose new files begin
empty. -/
structure Lends (cache : Cache) (handles : List Entry) : Prop where
  sound : cache.Sound
  handles : cache.held.Perm handles
  blank : cache.folder.medium.reached = []

private theorem lends_empty (budget : Nat) (keepsFolder : Bool) :
    (empty budget keepsFolder).Lends [] :=
  ⟨sound_empty budget keepsFolder, List.Perm.refl _, rfl⟩

namespace Lends

private theorem of_perm (lends : cache.Lends handles) (permutation : handles.Perm others) :
    cache.Lends others :=
  ⟨lends.sound, lends.handles.trans permutation, lends.blank⟩

private theorem withFolder (lends : cache.Lends handles) (blank : folder.medium.reached = []) :
    { cache with folder := folder }.Lends handles :=
  ⟨lends.sound.withFolder folder, lends.handles, blank⟩

private theorem hold (lends : cache.Lends handles) (member : entry ∈ handles) :
    (cache.hold entry).Lends (entry :: handles) where
  sound := lends.sound.hold (lends.sound.pinned entry (lends.handles.mem_iff.mpr member))
  handles := lends.handles.cons entry
  blank := lends.blank

private theorem release (lends : cache.Lends (entry :: handles)) :
    (cache.release entry).Lends handles where
  sound := lends.sound.release entry
  handles := by
    have fewer := lends.handles.erase entry
    rw [List.erase_cons_head] at fewer
    exact fewer
  blank := lends.blank

private theorem get? (lends : cache.Lends handles) (fingerprint : Fingerprint) :
    (cache.get? fingerprint).2.Lends ((cache.get? fingerprint).1.toList ++ handles) := by
  have sound := lends.sound.get? fingerprint
  cases found : cache.find? fingerprint with
  | none =>
    rw [get?_of_absent found]
    exact lends
  | some entry =>
    rw [get?_of_cached found] at sound ⊢
    exact ⟨sound, lends.handles.cons entry, lends.blank⟩

private theorem insert (lends : cache.Lends handles) (fingerprint : Fingerprint)
    (temporary : FileName) :
    (cache.insert fingerprint temporary).2.Lends
      ((cache.insert fingerprint temporary).1.toOption.toList ++ handles) where
  sound := lends.sound.insert fingerprint temporary
  handles := by
    rw [insert_held]
    exact lends.handles.append_left _
  blank := by
    rw [insert_medium]
    exact lends.blank

/-- A new file takes no handle, whether it stays or is discarded. -/
theorem create (lends : cache.Lends handles) (content : Bytes) :
    { cache with folder := (cache.folder.create content).2 }.Lends handles :=
  lends.withFolder lends.blank

private theorem create_discard (lends : cache.Lends handles) (content : Bytes) :
    { cache with
      folder := (cache.folder.create content).2.discard (cache.folder.create content).1 }.Lends
        handles := by
  apply lends.withFolder
  rw [Folder.discard_medium]
  exact lends.blank

private theorem receive (lends : cache.Lends handles) (reader : Reader) :
    (cache.receive reader).2.Lends handles := by
  unfold Cache.receive
  rcases copyDigest reader cache.folder.medium with ⟨_ | _, writer⟩
  · exact lends.create_discard writer.written
  · exact lends.create writer.written

end Lends

end Cache

/-! ## Operations of a store -/

namespace Store

variable {Connection : Type} [Remote Connection] {store : Store Connection} {cache : Cache}
  {handles : List Entry}

omit [Remote Connection] in
private theorem lends_accept (lends : cache.Lends handles) (fingerprint : Fingerprint)
    (content : Bytes) :
    (accept fingerprint content cache).2.Lends
      ((accept fingerprint content cache).1.toOption.toList ++ handles) := by
  by_cases hashed : Fingerprint.ofContent content = fingerprint
  · have inserted := (lends.create content).insert fingerprint (cache.folder.create content).1
    unfold accept
    simp only [if_pos hashed]
    split <;> rename_i done <;> rw [done] at inserted <;> exact inserted
  · unfold accept
    simp only [if_neg hashed]
    exact lends.create_discard content

private theorem lends_get (lends : store.cache.Lends handles) (fingerprint : Fingerprint) :
    (store.get fingerprint).2.cache.Lends
      ((store.get fingerprint).1.toOption.toList.map Binary.entry ++ handles) := by
  have looked := lends.get? fingerprint
  unfold Store.get
  split
  · rename_i found
    rw [found] at looked
    exact looked
  · rename_i missed
    rw [missed] at looked
    split
    · exact looked.create_discard _
    · rename_i length written connection fetched
      have accepted := lends_accept looked fingerprint written
      split <;> rename_i done <;> rw [done] at accepted <;> exact accepted

/-- Others may change the folder meanwhile, as long as new files begin empty. -/
theorem lends_putWhile (lends : store.cache.Lends handles) {meanwhile : Folder → Folder}
    (blank : ∀ folder, folder.medium.reached = [] → (meanwhile folder).medium.reached = [])
    (reader : Reader) :
    (store.putWhile meanwhile reader).2.cache.Lends
      ((store.putWhile meanwhile reader).1.toOption.toList.map Binary.entry ++ handles) := by
  have received := lends.receive reader
  unfold putWhile
  split
  · rename_i refused
    rw [refused] at received
    exact received
  · rename_i fingerprint temporary cache given
    rw [given] at received
    have inserted := received.insert fingerprint temporary
    split <;> rename_i done <;> rw [done] at inserted
    · exact inserted
    · have altered := inserted.withFolder (blank _ inserted.blank)
      simp only
      split
      · exact altered
      · exact altered.release

namespace Usage

variable {usage : Usage Connection}

/-! ## Every run -/

/-- The handles on the cache of a usage are those of the binaries in hand. -/
def Lends (usage : Usage Connection) : Prop :=
  usage.store.cache.Lends (usage.hands.map Binary.entry)

private theorem keptInHand_lends (store : Store Connection) :
    store.KeptInHand fun cache hands => cache.Lends (hands.map Binary.entry) where
  perm := fun lends permutation => lends.of_perm (permutation.map _)
  hold := fun lends member => lends.hold (List.mem_map_of_mem member)
  release := fun lends => lends.release
  put := by
    intro hands reader lends
    rw [List.map_append]
    exact lends_putWhile lends (fun _ blank => blank) reader
  get := by
    intro hands fingerprint lends
    rw [List.map_append]
    exact lends_get lends fingerprint

omit [Remote Connection] in
theorem lends_first (repository : String) (budget : Nat) (connection : Connection) :
    (first repository budget connection).Lends :=
  Cache.lends_empty budget false

end Usage

/-- Whether new files still begin empty when others have changed the folder. -/
def Step.LeavesBlank : Step Connection → Prop
  | .alter folder => folder.medium.reached = []
  | .putWhile meanwhile _ =>
    ∀ folder : Folder, folder.medium.reached = [] → (meanwhile folder).medium.reached = []
  | _ => True

namespace Usage

variable {usage : Usage Connection}

/-- Every step keeps the handles on the cache those of the binaries in hand,
whatever others make of the folder. -/
theorem Lends.step (lends : usage.Lends) {taken : Step Connection} (blank : taken.LeavesBlank) :
    (usage.step taken).Lends := by
  cases taken with
  | act operation => exact (keptInHand_lends usage.store).perform lends operation
  | surround locked medium => exact lends.withFolder rfl
  | elsewhere change => exact lends
  | alter folder => exact lends.withFolder blank
  | putWhile meanwhile reader =>
    unfold Lends Usage.step
    rw [cache_take, hands_take, List.map_append]
    exact lends_putWhile lends blank reader

theorem Lends.run (lends : usage.Lends) {steps : List (Step Connection)}
    (blank : ∀ taken ∈ steps, taken.LeavesBlank) : (run steps usage).Lends := by
  induction steps generalizing usage with
  | nil => exact lends
  | cons taken rest inductionHypothesis =>
    apply inductionHypothesis (lends.step (blank taken List.mem_cons_self))
    intro later member
    exact blank later (List.mem_cons_of_mem _ member)

end Usage

end Store

end ContentStore
