import ContentStore.Proofs.Collector.Session
import Mathlib.Algebra.GroupWithZero.Nat

/-!
Contract: a sweep as a count of what is listed, and deletions one after the
other.

Owns:
- `Tally.of`, the counters for objects that are live and others that are not,
  whatever their order, and `Tally.Fits`, by which the sums of their sizes fit into
  words;
- `deleteAll`, deletions in turn, of which the first that fails is the last;
- `sweep_of_listed`, by which a sweep counts all that is listed, and deletes the
  objects that are not live if it is told to, where the sums of sizes fit;
- `exists_sweep_of_large`, by which a sweep is given up elsewhere, after deletions of
  the objects in front;
- `collect`, a whole session, of which only the members of its marks matter.

Does not own: what a deletion does to the remote.
-/

namespace ContentStore

/-! ## Counters -/

/-- The sum of the sizes of listed objects. -/
def ListedObject.totalSize (objects : List ListedObject) : Nat :=
  (objects.map fun object => object.size.toNat).sum

namespace ListedObject

variable {objects others : List ListedObject}

private theorem totalSize_cons (object : ListedObject) (objects : List ListedObject) :
    totalSize (object :: objects) = object.size.toNat + totalSize objects :=
  List.sum_cons

theorem totalSize_append (objects others : List ListedObject) :
    totalSize (objects ++ others) = totalSize objects + totalSize others := by
  rw [totalSize, List.map_append, List.sum_append]
  rfl

theorem totalSize_perm (perm : objects.Perm others) : totalSize objects = totalSize others :=
  (perm.map _).sum_nat

/-- What is told apart adds up. -/
theorem totalSize_filter (objects : List ListedObject) (isLive : ListedObject → Bool) :
    totalSize (objects.filter isLive) + totalSize (objects.filter fun object => !isLive object) =
      totalSize objects := by
  rw [← totalSize_append]
  exact totalSize_perm (List.filter_append_perm isLive objects)

private theorem ofNat_totalSize_cons (object : ListedObject) (objects : List ListedObject) :
    UInt64.ofNat (totalSize (object :: objects)) =
      UInt64.ofNat (totalSize objects) + object.size := by
  rw [totalSize_cons, UInt64.ofNat_add, UInt64.ofNat_toNat, UInt64.add_comm]

end ListedObject

namespace Tally

open ListedObject (totalSize totalSize_append totalSize_cons totalSize_perm ofNat_totalSize_cons)

variable {live collected : List ListedObject}

/-- The counters for objects that are live and for objects that are not. -/
def of (live collected : List ListedObject) : Tally where
  numLive := UInt64.ofNat live.length
  sizeLive := UInt64.ofNat (totalSize live)
  numCollected := UInt64.ofNat collected.length
  sizeCollected := UInt64.ofNat (totalSize collected)
  durationMillis := 0

/-- The sums of sizes fit into words. -/
structure Fits (live collected : List ListedObject) : Prop where
  sizeLive : totalSize live < 2 ^ 64
  sizeCollected : totalSize collected < 2 ^ 64

/-- Sizes whose sums fit are counted exactly. -/
theorem sizes_of (fits : Fits live collected) :
    (of live collected).sizeLive.toNat = totalSize live ∧
      (of live collected).sizeCollected.toNat = totalSize collected :=
  ⟨UInt64.toNat_ofNat_of_lt' fits.sizeLive, UInt64.toNat_ofNat_of_lt' fits.sizeCollected⟩

/-- Objects that are fewer than the numbers of a word are counted exactly. -/
theorem numbers_of (few : live.length + collected.length < 2 ^ 64) :
    (of live collected).numLive.toNat = live.length ∧
      (of live collected).numCollected.toNat = collected.length :=
  ⟨UInt64.toNat_ofNat_of_lt' (by rw [UInt64.size]; omega),
    UInt64.toNat_ofNat_of_lt' (by rw [UInt64.size]; omega)⟩

/-- A size is added to the sum of others exactly if the sum of all fits. -/
theorem add?_totalSize {objects : List ListedObject} (fits : totalSize objects < 2 ^ 64)
    (object : ListedObject) :
    add? (UInt64.ofNat (totalSize objects)) object.size =
      if totalSize (object :: objects) < 2 ^ 64 then
        some (UInt64.ofNat (totalSize (object :: objects)))
      else none := by
  have sum : (UInt64.ofNat (totalSize objects)).toNat + object.size.toNat =
      totalSize (object :: objects) := by
    rw [UInt64.toNat_ofNat_of_lt' fits, totalSize_cons, Nat.add_comm]
  rw [add?, sum, ofNat_totalSize_cons]
  rfl

private theorem addLive?_of (fits : totalSize live < 2 ^ 64) (object : ListedObject)
    (collected : List ListedObject) :
    (of live collected).addLive? object.size =
      if totalSize (object :: live) < 2 ^ 64 then some (of (object :: live) collected)
      else none := by
  rw [addLive?, show (of live collected).sizeLive = UInt64.ofNat (totalSize live) from rfl,
    add?_totalSize fits]
  split
  · simp only [Option.map_some, of, List.length_cons, UInt64.ofNat_add, UInt64.ofNat_one]
  · rfl

private theorem addCollected?_of (fits : totalSize collected < 2 ^ 64) (object : ListedObject)
    (live : List ListedObject) :
    (of live collected).addCollected? object.size =
      if totalSize (object :: collected) < 2 ^ 64 then some (of live (object :: collected))
      else none := by
  rw [addCollected?,
    show (of live collected).sizeCollected = UInt64.ofNat (totalSize collected) from rfl,
    add?_totalSize fits]
  split
  · simp only [Option.map_some, of, List.length_cons, UInt64.ofNat_add, UInt64.ofNat_one]
  · rfl

/-- Where all objects fit, those fit that are counted first. -/
theorem Fits.of_append {laterLive laterCollected : List ListedObject}
    (fits : Fits (laterLive ++ live) (laterCollected ++ collected)) : Fits live collected := by
  obtain ⟨sizeLive, sizeCollected⟩ := fits
  rw [totalSize_append] at sizeLive sizeCollected
  exact ⟨by omega, by omega⟩

private theorem fits_perm {others rest : List ListedObject} (permLive : live.Perm others)
    (permCollected : collected.Perm rest) : Fits live collected ↔ Fits others rest := by
  constructor <;> rintro ⟨sizeLive, sizeCollected⟩
  · exact ⟨totalSize_perm permLive ▸ sizeLive, totalSize_perm permCollected ▸ sizeCollected⟩
  · exact ⟨totalSize_perm permLive ▸ sizeLive, totalSize_perm permCollected ▸ sizeCollected⟩

/-- Where all sizes together fit into a word, those on either side do. -/
theorem fits_filter {objects : List ListedObject} (bounded : totalSize objects < 2 ^ 64)
    (isLive : ListedObject → Bool) :
    Fits (objects.filter isLive) (objects.filter fun object => !isLive object) := by
  have sum := ListedObject.totalSize_filter objects isLive
  exact ⟨by omega, by omega⟩

/-- The order of the objects does not matter. -/
theorem of_perm {others rest : List ListedObject} (permLive : live.Perm others)
    (permCollected : collected.Perm rest) : of live collected = of others rest := by
  simp only [of, permLive.length_eq, permCollected.length_eq, totalSize_perm permLive,
    totalSize_perm permCollected]

/-! An object that comes before others counts as one that was counted before. -/

section Before

variable {object : ListedObject} {isLive : ListedObject → Bool}

private theorem filter_cons_of_live_perm (isObject : isLive object = true)
    (rest live collected : List ListedObject) :
    ((object :: rest).filter isLive ++ live).Perm (rest.filter isLive ++ object :: live) ∧
      (((object :: rest).filter fun other => !isLive other) ++ collected).Perm
        ((rest.filter fun other => !isLive other) ++ collected) := by
  simp only [List.filter_cons, isObject, Bool.not_true, Bool.false_eq_true, if_false, if_true]
  exact ⟨List.perm_middle.symm, List.Perm.refl _⟩

private theorem filter_cons_of_dead_perm (isObject : isLive object = false)
    (rest live collected : List ListedObject) :
    ((object :: rest).filter isLive ++ live).Perm (rest.filter isLive ++ live) ∧
      (((object :: rest).filter fun other => !isLive other) ++ collected).Perm
        ((rest.filter fun other => !isLive other) ++ object :: collected) := by
  simp only [List.filter_cons, isObject, Bool.not_false, Bool.false_eq_true, if_false, if_true]
  exact ⟨List.Perm.refl _, List.perm_middle.symm⟩

end Before

end Tally

namespace Collector

open ListedObject (totalSize)

variable {Connection : Type} [Remote Connection]

/-! ## Deletions in turn -/

/-- Delete what stands under some keys in turn, until a deletion fails. -/
def deleteAll : List String → Connection → Except StoreError Unit × Connection
  | [], connection => (.ok (), connection)
  | key :: rest, connection =>
    match Remote.delete key connection with
    | (.ok _, after) => deleteAll rest after
    | (.error cause, after) => (.error cause, after)

theorem deleteAll_cons_of_ok {key : String} {connection after : Connection} {removal : Removal}
    (deleted : Remote.delete key connection = (.ok removal, after)) (rest : List String) :
    deleteAll (key :: rest) connection = deleteAll rest after := by
  simp only [deleteAll, deleted]

theorem deleteAll_cons_of_error {key : String} {connection after : Connection}
    {cause : StoreError} (refused : Remote.delete key connection = (.error cause, after))
    (rest : List String) : deleteAll (key :: rest) connection = (.error cause, after) := by
  simp only [deleteAll, refused]

/-- Deletions go on where those before them have succeeded. -/
theorem deleteAll_append {front : List String} {connection reached : Connection}
    (done : deleteAll front connection = (.ok (), reached)) (back : List String) :
    deleteAll (front ++ back) connection = deleteAll back reached := by
  induction front generalizing connection with
  | nil =>
    rw [(Prod.mk.inj done).2.symm]
    rfl
  | cons key rest inductionHypothesis =>
    rw [List.cons_append]
    rcases deleted : Remote.delete key connection with ⟨cause | removal, after⟩
    · rw [deleteAll_cons_of_error deleted] at done
      exact absurd (Prod.mk.inj done).1 (by simp)
    · rw [deleteAll_cons_of_ok deleted] at done ⊢
      exact inductionHypothesis done

/-- Deletions in turn fail at the first one that does. -/
theorem exists_of_deleteAll_error {keys : List String} {connection after : Connection}
    {cause : StoreError} (failed : deleteAll keys connection = (.error cause, after)) :
    ∃ front key back reached, keys = front ++ key :: back ∧
      deleteAll front connection = (.ok (), reached) ∧
      Remote.delete key reached = (.error cause, after) := by
  induction keys generalizing connection with
  | nil => exact absurd (Prod.mk.inj failed).1 (by simp)
  | cons key rest inductionHypothesis =>
    rcases deleted : Remote.delete key connection with ⟨reason | removal, next⟩
    · rw [deleteAll_cons_of_error deleted] at failed
      obtain ⟨sameCause, rfl⟩ := Prod.mk.inj failed
      rw [Except.error.inj sameCause] at deleted
      exact ⟨[], key, rest, connection, rfl, rfl, deleted⟩
    · rw [deleteAll_cons_of_ok deleted] at failed
      obtain ⟨front, last, back, reached, split, done, failing⟩ := inductionHypothesis failed
      refine ⟨key :: front, last, back, reached, by rw [split, List.cons_append], ?_, failing⟩
      rw [deleteAll_cons_of_ok deleted, done]

/-- The keys that a sweep is to delete. -/
def targets (marked : List Fingerprint) (delete : Bool) (objects : List ListedObject) :
    List String :=
  if delete then (objects.filter fun object => !isLive marked object).map ListedObject.key else []

private theorem targets_cons_of_live {marked : List Fingerprint} {object : ListedObject}
    (live : isLive marked object = true) (delete : Bool) (rest : List ListedObject) :
    targets marked delete (object :: rest) = targets marked delete rest := by
  simp only [targets, List.filter_cons, live, Bool.not_true, Bool.false_eq_true, if_false]

private theorem targets_cons_of_dead {marked : List Fingerprint} {object : ListedObject}
    (dead : isLive marked object = false) (rest : List ListedObject) :
    targets marked true (object :: rest) = object.key :: targets marked true rest := by
  simp only [targets, List.filter_cons, dead, Bool.not_false, if_true, List.map_cons]

/-- Where the sums of sizes fit, a sweep of listed objects deletes its targets in
turn, and comes to the count of all the objects if no deletion fails. -/
theorem sweepObjects_of_fits (marked : List Fingerprint) (delete : Bool)
    (objects live collected : List ListedObject) (connection : Connection)
    (fits : Tally.Fits (objects.filter (isLive marked) ++ live)
      ((objects.filter fun object => !isLive marked object) ++ collected)) :
    sweepObjects marked delete objects (Tally.of live collected) connection =
      (((deleteAll (targets marked delete objects) connection).1.mapError .failure).map fun _ =>
          Tally.of (objects.filter (isLive marked) ++ live)
            ((objects.filter fun object => !isLive marked object) ++ collected),
        (deleteAll (targets marked delete objects) connection).2) := by
  induction objects generalizing live collected connection with
  | nil => cases delete <;> rfl
  | cons object rest inductionHypothesis =>
    obtain ⟨fitsLive, fitsCollected⟩ := fits.of_append
    unfold sweepObjects
    cases isLive : isLive marked object with
    | true =>
      obtain ⟨permLive, permCollected⟩ :=
        Tally.filter_cons_of_live_perm isLive rest live collected
      rw [Tally.fits_perm permLive permCollected] at fits
      rw [if_pos rfl, Tally.addLive?_of fitsLive, if_pos fits.of_append.sizeLive,
        targets_cons_of_live isLive, Tally.of_perm permLive permCollected]
      exact inductionHypothesis _ _ _ fits
    | false =>
      obtain ⟨permLive, permCollected⟩ :=
        Tally.filter_cons_of_dead_perm isLive rest live collected
      rw [Tally.fits_perm permLive permCollected] at fits
      rw [if_neg Bool.false_ne_true, Tally.addCollected?_of fitsCollected,
        if_pos fits.of_append.sizeCollected, Tally.of_perm permLive permCollected]
      cases delete with
      | false => exact inductionHypothesis _ _ _ fits
      | true =>
        rw [targets_cons_of_dead isLive]
        dsimp only
        rw [if_pos rfl]
        rcases deleted : Remote.delete object.key connection with ⟨cause | removal, after⟩
        · rw [deleteAll_cons_of_error deleted]
          rfl
        · rw [deleteAll_cons_of_ok deleted]
          exact inductionHypothesis _ _ _ fits

/-- Where a sum of sizes does not fit, a sweep of listed objects deletes some of its
targets, the first ones, and is given up then if none of these deletions fails. -/
theorem exists_sweepObjects_of_large (marked : List Fingerprint) (delete : Bool)
    (objects live collected : List ListedObject) (connection : Connection)
    (fits : Tally.Fits live collected)
    (large : ¬ Tally.Fits (objects.filter (isLive marked) ++ live)
      ((objects.filter fun object => !isLive marked object) ++ collected)) :
    ∃ front back, targets marked delete objects = front ++ back ∧
      sweepObjects marked delete objects (Tally.of live collected) connection =
        (((deleteAll front connection).1.mapError .failure).bind fun _ => .error .overflow,
          (deleteAll front connection).2) := by
  induction objects generalizing live collected connection with
  | nil => exact absurd fits large
  | cons object rest inductionHypothesis =>
    unfold sweepObjects
    cases isLive : isLive marked object with
    | true =>
      obtain ⟨permLive, permCollected⟩ :=
        Tally.filter_cons_of_live_perm isLive rest live collected
      rw [Tally.fits_perm permLive permCollected] at large
      rw [if_pos rfl, Tally.addLive?_of fits.sizeLive, targets_cons_of_live isLive]
      by_cases small : totalSize (object :: live) < 2 ^ 64
      · rw [if_pos small]
        exact inductionHypothesis _ _ _ ⟨small, fits.sizeCollected⟩ large
      · rw [if_neg small]
        exact ⟨[], _, rfl, rfl⟩
    | false =>
      obtain ⟨permLive, permCollected⟩ :=
        Tally.filter_cons_of_dead_perm isLive rest live collected
      rw [Tally.fits_perm permLive permCollected] at large
      rw [if_neg Bool.false_ne_true, Tally.addCollected?_of fits.sizeCollected]
      by_cases small : totalSize (object :: collected) < 2 ^ 64
      · rw [if_pos small]
        have fitsNext : Tally.Fits live (object :: collected) := ⟨fits.sizeLive, small⟩
        cases delete with
        | false => exact inductionHypothesis _ _ _ fitsNext large
        | true =>
          rw [targets_cons_of_dead isLive]
          dsimp only
          rw [if_pos rfl]
          rcases deleted : Remote.delete object.key connection with ⟨cause | removal, after⟩
          · refine ⟨[object.key], _, rfl, ?_⟩
            rw [deleteAll_cons_of_error deleted]
            rfl
          · obtain ⟨front, back, split, swept⟩ := inductionHypothesis _ _ after fitsNext large
            refine ⟨object.key :: front, back, by rw [split, List.cons_append], ?_⟩
            rw [deleteAll_cons_of_ok deleted]
            exact swept
      · rw [if_neg small]
        exact ⟨[], _, rfl, rfl⟩

section Listed

variable {connection listed : Connection} {objects : List ListedObject}

/-- A sweep that gets a listing whose sums of sizes fit deletes its targets in turn,
and comes to the count of all the objects if no deletion fails. -/
theorem sweep_of_listed (answered : Remote.list connection = (.ok objects, listed))
    {marked : List Fingerprint}
    (fits : Tally.Fits (objects.filter (isLive marked))
      (objects.filter fun object => !isLive marked object)) (delete : Bool) :
    sweep marked delete connection =
      (((deleteAll (targets marked delete objects) listed).1.mapError .failure).map fun _ =>
          Tally.of (objects.filter (isLive marked))
            (objects.filter fun object => !isLive marked object),
        (deleteAll (targets marked delete objects) listed).2) := by
  have swept := sweepObjects_of_fits marked delete objects [] [] listed
    (by rw [List.append_nil, List.append_nil]; exact fits)
  rw [List.append_nil, List.append_nil] at swept
  simp only [sweep, answered]
  exact swept

/-- A sweep that gets a listing in which a sum of sizes does not fit deletes the first
ones of its targets, and is given up then if none of these deletions fails. -/
theorem exists_sweep_of_large (answered : Remote.list connection = (.ok objects, listed))
    {marked : List Fingerprint}
    (large : ¬ Tally.Fits (objects.filter (isLive marked))
      (objects.filter fun object => !isLive marked object)) (delete : Bool) :
    ∃ front back, targets marked delete objects = front ++ back ∧
      sweep marked delete connection =
        (((deleteAll front listed).1.mapError .failure).bind fun _ => .error .overflow,
          (deleteAll front listed).2) := by
  have swept := exists_sweepObjects_of_large marked delete objects [] [] listed
    (by constructor <;> exact Nat.two_pow_pos 64)
    (by rw [List.append_nil, List.append_nil]; exact large)
  simp only [sweep, answered]
  exact swept

theorem sweep_of_refused {cause : StoreError}
    (refused : Remote.list connection = (.error cause, listed)) (marked : List Fingerprint)
    (delete : Bool) : sweep marked delete connection = (.error (.failure cause), listed) := by
  simp only [sweep, refused]

/-- A sweep is given up only over a listing in which a sum of sizes does not fit. -/
theorem exists_of_overflow {marked : List Fingerprint} {delete : Bool}
    (overflow : (sweep marked delete connection).1 = .error .overflow) :
    ∃ objects, (Remote.list connection).1 = .ok objects ∧
      ¬ Tally.Fits (objects.filter (isLive marked))
        (objects.filter fun object => !isLive marked object) := by
  rcases answered : Remote.list connection with ⟨cause | objects, listed⟩
  · rw [sweep_of_refused answered] at overflow
    exact absurd overflow (by simp)
  · refine ⟨objects, rfl, fun fits => ?_⟩
    rw [sweep_of_listed answered fits] at overflow
    cases deleted : (deleteAll (targets marked delete objects) listed).1 <;>
    · rw [deleted] at overflow
      exact nomatch overflow

end Listed

/-! ## Whole sessions -/

/-- A session of some milliseconds: a start, the marks in turn, and a stop. -/
def collect (marks : List Fingerprint) (delete : Bool) (elapsed : UInt64)
    (collector : Collector) (connection : Connection) :
    Except (Interruption StoreError) Tally × Collector × Connection :=
  match collector.start >>= marks.foldlM mark with
  | .ok marking => marking.stop delete elapsed connection
  | .error cause => (.error (.failure cause), collector, connection)

variable {marks again : List Fingerprint}

/-- Only the members of the marks matter. -/
theorem isLive_congr (same : ∀ fingerprint, fingerprint ∈ again ↔ fingerprint ∈ marks) :
    isLive again = isLive marks := by
  funext object
  rw [Bool.eq_iff_iff, isLive_iff, isLive_iff]
  simp only [same]

private theorem sweep_congr (same : ∀ fingerprint, fingerprint ∈ again ↔ fingerprint ∈ marks)
    (delete : Bool) (connection : Connection) :
    sweep again delete connection = sweep marks delete connection := by
  have sameObjects (objects : List ListedObject) (tally : Tally) (used : Connection) :
      sweepObjects again delete objects tally used =
        sweepObjects marks delete objects tally used := by
    induction objects generalizing tally used with
    | nil => rfl
    | cons object rest inductionHypothesis =>
      simp only [sweepObjects, isLive_congr same, inductionHypothesis]
  simp only [sweep, sameObjects]

omit [Remote Connection] in
/-- Marks are taken in turn while the collector is marking. -/
theorem foldlM_mark (marks : List Fingerprint) (collector : Collector)
    (marking : collector.phase = .marking) :
    ∃ marked, marks.foldlM mark collector = .ok { collector with marked := marked } ∧
      ∀ fingerprint, fingerprint ∈ marked ↔
        fingerprint ∈ collector.marked ∨ fingerprint ∈ marks := by
  induction marks generalizing collector with
  | nil => exact ⟨collector.marked, rfl, by simp⟩
  | cons first rest inductionHypothesis =>
    have noted : collector.mark first =
        .ok { collector with marked := collector.marked.insert first } := by
      simp only [mark, marking]
    obtain ⟨marked, done, members⟩ := inductionHypothesis
      { collector with marked := collector.marked.insert first } marking
    refine ⟨marked, ?_, ?_⟩
    · rw [List.foldlM_cons, noted]
      exact done
    · intro fingerprint
      rw [members, List.mem_insert_iff, List.mem_cons, or_assoc, or_left_comm]

/-- A stop while marking takes the marks along into its sweep. -/
theorem stop_of_marking {collector : Collector} (marking : collector.phase = .marking)
    (delete : Bool) (elapsed : UInt64) (connection : Connection) :
    let outcome := (sweep collector.marked delete connection).1.map (Tally.lasting elapsed)
    collector.stop delete elapsed connection =
      (outcome, (⟨.sweeping, [], collector.status⟩ : Collector).endSweep outcome,
        (sweep collector.marked delete connection).2) := by
  simp only [stop, stopWhile, beginSweep_of_marking marking]

/-- A session on an idle collector comes to its sweep. -/
theorem collect_of_idle {collector : Collector} (idle : collector.phase = .idle)
    (marks : List Fingerprint) (delete : Bool) (elapsed : UInt64) (connection : Connection) :
    let outcome := (sweep marks delete connection).1.map (Tally.lasting elapsed)
    collect marks delete elapsed collector connection =
      (outcome, (⟨.sweeping, [], Tally.zero⟩ : Collector).endSweep outcome,
        (sweep marks delete connection).2) := by
  have started : collector.start = .ok ⟨.marking, [], Tally.zero⟩ := by
    simp only [start, idle]
  obtain ⟨marked, done, members⟩ := foldlM_mark marks ⟨.marking, [], Tally.zero⟩ rfl
  have same : sweep marked delete connection = sweep marks delete connection :=
    sweep_congr (fun fingerprint => by simp [members]) delete connection
  have begun : collector.start >>= marks.foldlM mark = .ok ⟨.marking, marked, Tally.zero⟩ := by
    rw [started]
    exact done
  simp only [collect, begun]
  rw [stop_of_marking rfl, same]

end Collector

end ContentStore
