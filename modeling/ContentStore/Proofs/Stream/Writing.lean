import ContentStore.Proofs.Stream

/-!
Contract: what becomes of octets that are offered to a writer again and again.

Owns:
- `Writer.having`, the writer after it took some octets, and what one write makes
  of a writer;
- `Takes` and `Refuses`, by which writes one after the other end with all octets
  taken, or with a write that fails or takes nothing;
- `InterruptsFinitely`, by which a writer does not interrupt for ever;
- that writing all octets comes to one of these two ends, and which writers come
  to the first.

Does not own: where the octets come from.
-/

namespace ContentStore.Writer

variable {writer between after : Writer} {octets taken rest : Bytes} {kind : IoKind}
  {count fuel : Nat}

/-! ## One write -/

/-- The writer after it took some octets, with the turns that are left. -/
def having (writer : Writer) (taken : Bytes) (turns : List WriteTurn) : Writer :=
  { writer with
    turns := turns
    reached := taken.reverse ++ writer.reached
    room := writer.room.map (· - taken.length) }

@[simp] theorem written_having (writer : Writer) (taken : Bytes) (turns : List WriteTurn) :
    (writer.having taken turns).written = writer.written ++ taken := by
  simp [having, written]

@[simp] theorem turns_having (writer : Writer) (taken : Bytes) (turns : List WriteTurn) :
    (writer.having taken turns).turns = turns := rfl

@[simp] theorem flushes_having (writer : Writer) (taken : Bytes) (turns : List WriteTurn) :
    (writer.having taken turns).flushes = writer.flushes := rfl

@[simp] theorem flushFailure_having (writer : Writer) (taken : Bytes) (turns : List WriteTurn) :
    (writer.having taken turns).flushFailure = writer.flushFailure := rfl

theorem having_nil (writer : Writer) (turns : List WriteTurn) :
    writer.having [] turns = { writer with turns := turns } := by
  simp [having]

theorem having_having (writer : Writer) (first second : Bytes) (turns later : List WriteTurn) :
    (writer.having first turns).having second later = writer.having (first ++ second) later := by
  simp [having, Function.comp_def, Nat.sub_sub]

/-- Of two limits that may be absent, the smaller one holds for what is allowed. -/
theorem length_allowed_tighter_le (room limit : Option Nat) (octets : Bytes) :
    ∀ count ∈ room, (allowed (tighter room limit) octets).length ≤ count := by
  rintro count rfl
  cases limit with
  | none => exact List.length_take_le count octets
  | some limit =>
    refine Nat.le_trans (List.length_take_le (min count limit) octets) ?_
    exact Nat.min_le_left count limit

/-- A write that takes some octets takes the first ones, and no more than there is room for. -/
theorem take_ok {limit : Option Nat} (taken : writer.take limit octets = (.ok count, after)) :
    after = writer.having (octets.take count) writer.turns ∧ count ≤ octets.length ∧
      ∀ room ∈ writer.room, count ≤ room := by
  unfold take at taken
  split at taken
  · exact absurd taken (by simp)
  · simp only [Prod.mk.injEq, Except.ok.injEq] at taken
    obtain ⟨rfl, rfl⟩ := taken
    rw [← allowed_eq_take]
    refine ⟨rfl, ?_, length_allowed_tighter_le _ _ octets⟩
    rw [allowed_eq_take, List.length_take]
    exact Nat.min_le_right _ _

/-- A write fails on its own only if the writer is full. -/
theorem take_error {limit : Option Nat} (failed : writer.take limit octets = (.error kind, after)) :
    after = writer ∧ writer.room = some 0 ∧ writer.whenFull = some kind := by
  unfold take at failed
  split at failed
  · rename_i full fails
    obtain ⟨sameKind, rfl⟩ := Prod.mk.inj failed
    exact ⟨rfl, full, fails.trans (congrArg some (Except.error.inj sameKind))⟩
  · exact absurd failed (by simp)

private theorem write_ok (wrote : writer.write octets = (.ok count, after)) :
    after = writer.having (octets.take count) writer.turns.tail ∧ count ≤ octets.length ∧
      ∀ room ∈ writer.room, count ≤ room := by
  unfold write at wrote
  split at wrote
  · exact absurd wrote (by simp)
  · rename_i limit turns turn
    rw [turn]
    exact take_ok wrote
  · rename_i spent
    have same := take_ok wrote
    rw [spent] at same ⊢
    exact same

/-- A write that fails takes nothing.  Either this was its turn, or the writer is full. -/
theorem write_error (failed : writer.write octets = (.error kind, after)) :
    after = writer.having [] writer.turns.tail ∧
      (writer.turns ≠ [] ∨ writer.room = some 0 ∧ writer.whenFull = some kind) := by
  rw [having_nil]
  unfold write at failed
  split at failed
  · rename_i turn
    rw [turn]
    exact ⟨(Prod.mk.inj failed).2.symm, Or.inl (List.cons_ne_nil _ _)⟩
  · rename_i turn
    rw [turn]
    exact ⟨(take_error failed).1, Or.inl (List.cons_ne_nil _ _)⟩
  · rename_i spent
    obtain ⟨rfl, full⟩ := take_error failed
    rw [spent]
    refine ⟨?_, Or.inr full⟩
    rw [List.tail_nil, ← spent]

/-! ## Writes one after the other -/

/-- Octets that are left over are offered again until the writer took them all: each
write takes some of them, or is interrupted. -/
inductive Takes : Writer → Bytes → Writer → Prop where
  | done (writer : Writer) : Takes writer [] writer
  | some {writer between after : Writer} {octets : Bytes} {count : Nat} (offered : octets ≠ [])
    (wrote : writer.write octets = (.ok (count + 1), between))
    (later : Takes between (octets.drop (count + 1)) after) : Takes writer octets after
  | interrupted {writer between after : Writer} {octets : Bytes} (offered : octets ≠ [])
    (wrote : writer.write octets = (.error .interrupted, between))
    (later : Takes between octets after) : Takes writer octets after

/-- Octets that are left over are offered again until a write takes nothing, or fails
otherwise than by an interruption; `taken` is what the writer took before. -/
inductive Refuses : Writer → Bytes → (taken : Bytes) → IoKind → Writer → Prop where
  | nothing {writer after : Writer} {octets : Bytes} (offered : octets ≠ [])
    (wrote : writer.write octets = (.ok 0, after)) : Refuses writer octets [] .writeZero after
  | failed {writer after : Writer} {octets : Bytes} {kind : IoKind} (offered : octets ≠ [])
    (wrote : writer.write octets = (.error kind, after)) (lasting : kind ≠ .interrupted) :
    Refuses writer octets [] kind after
  | some {writer between after : Writer} {octets taken : Bytes} {kind : IoKind} {count : Nat}
    (offered : octets ≠ []) (wrote : writer.write octets = (.ok (count + 1), between))
    (later : Refuses between (octets.drop (count + 1)) taken kind after) :
    Refuses writer octets (octets.take (count + 1) ++ taken) kind after
  | interrupted {writer between after : Writer} {octets taken : Bytes} {kind : IoKind}
    (offered : octets ≠ []) (wrote : writer.write octets = (.error .interrupted, between))
    (later : Refuses between octets taken kind after) : Refuses writer octets taken kind after

/-- The writer took the octets, and spent some turns; nothing else is changed. -/
theorem Takes.exists_having (takes : writer.Takes octets after) :
    ∃ spent, after = writer.having octets (writer.turns.drop spent) := by
  induction takes with
  | done writer => exact ⟨0, (having_nil writer writer.turns).symm⟩
  | some _ wrote _ inductionHypothesis =>
    obtain ⟨spent, rfl⟩ := inductionHypothesis
    rw [(write_ok wrote).1, having_having, List.take_append_drop]
    exact ⟨1 + spent, by rw [turns_having, ← List.drop_one, List.drop_drop]⟩
  | interrupted _ wrote _ inductionHypothesis =>
    obtain ⟨spent, rfl⟩ := inductionHypothesis
    rw [(write_error wrote).1, having_having, List.nil_append]
    exact ⟨1 + spent, by rw [turns_having, ← List.drop_one, List.drop_drop]⟩

/-- There was room for what a writer took. -/
theorem Takes.length_le_room (takes : writer.Takes octets after) :
    ∀ room ∈ writer.room, octets.length ≤ room := by
  induction takes with
  | done _ => exact fun _ _ => Nat.zero_le _
  | some _ wrote _ inductionHypothesis =>
    intro room isRoom
    obtain ⟨rfl, within, fits⟩ := write_ok wrote
    have fitsFirst := fits room isRoom
    have fitsLater := inductionHypothesis _ (Option.map_eq_some_iff.mpr ⟨room, isRoom, rfl⟩)
    simp only [List.length_drop, List.length_take] at fitsLater
    omega
  | interrupted _ wrote _ inductionHypothesis =>
    intro room isRoom
    apply inductionHypothesis
    rw [(write_error wrote).1, having_nil]
    exact isRoom

/-- What a writer took before it refused is not all that it was offered. -/
theorem Refuses.exists_rest (refuses : writer.Refuses octets taken kind after) :
    ∃ rest, rest ≠ [] ∧ octets = taken ++ rest := by
  induction refuses with
  | nothing offered _ => exact ⟨_, offered, rfl⟩
  | failed offered _ _ => exact ⟨_, offered, rfl⟩
  | @some _ _ _ octets _ _ count _ _ _ inductionHypothesis =>
    obtain ⟨rest, some_rest, apart⟩ := inductionHypothesis
    refine ⟨rest, some_rest, ?_⟩
    rw [List.append_assoc, ← apart, List.take_append_drop]
  | interrupted _ _ _ inductionHypothesis => exact inductionHypothesis

theorem Refuses.exists_having (refuses : writer.Refuses octets taken kind after) :
    ∃ turns, after = writer.having taken turns := by
  induction refuses with
  | @nothing writer after octets _ wrote =>
    exact ⟨_, (write_ok wrote).1.trans (by rw [List.take_zero])⟩
  | failed _ wrote _ => exact ⟨_, (write_error wrote).1⟩
  | some _ wrote _ inductionHypothesis =>
    obtain ⟨turns, rfl⟩ := inductionHypothesis
    rw [(write_ok wrote).1, having_having]
    exact ⟨turns, rfl⟩
  | interrupted _ wrote _ inductionHypothesis =>
    obtain ⟨turns, rfl⟩ := inductionHypothesis
    rw [(write_error wrote).1, having_having, List.nil_append]
    exact ⟨turns, rfl⟩

/-- No writer refuses by an interruption. -/
theorem Refuses.lasting (refuses : writer.Refuses octets taken kind after) :
    kind ≠ .interrupted := by
  induction refuses with
  | nothing _ _ => decide
  | failed _ _ lasting => exact lasting
  | some _ _ _ inductionHypothesis => exact inductionHypothesis
  | interrupted _ _ _ inductionHypothesis => exact inductionHypothesis

/-! ## Interruptions -/

/-- Whether a writer that takes so many octets interrupts only in some of its turns, and
not for ever once it is full. -/
def InterruptsFinitely (writer : Writer) (count : Nat) : Prop :=
  writer.whenFull = some .interrupted → ∀ room ∈ writer.room, count ≤ room

instance (writer : Writer) (count : Nat) : Decidable (writer.InterruptsFinitely count) :=
  inferInstanceAs (Decidable (_ → ∀ room ∈ writer.room, count ≤ room))

theorem InterruptsFinitely.mono {larger : Nat} (finite : writer.InterruptsFinitely larger)
    (le : count ≤ larger) : writer.InterruptsFinitely count :=
  fun fails room isRoom => Nat.le_trans le (finite fails room isRoom)

theorem InterruptsFinitely.having (finite : writer.InterruptsFinitely (taken.length + count))
    (turns : List WriteTurn) : (writer.having taken turns).InterruptsFinitely count := by
  intro fails room isRoom
  obtain ⟨whole, isWhole, rfl⟩ := Option.map_eq_some_iff.mp isRoom
  have enough := finite fails whole isWhole
  omega

/-- After a write has taken some octets, as many are left to be taken as were not. -/
theorem InterruptsFinitely.after_write (finite : writer.InterruptsFinitely octets.length)
    (wrote : writer.write octets = (.ok count, after)) :
    after.InterruptsFinitely (octets.drop count).length := by
  obtain ⟨rfl, _⟩ := write_ok wrote
  apply InterruptsFinitely.having
  rwa [← List.length_append, List.take_append_drop]

/-- An interruption is the turn of a write. -/
theorem InterruptsFinitely.some_turn (finite : writer.InterruptsFinitely octets.length)
    (offered : octets ≠ []) (wrote : writer.write octets = (.error .interrupted, after)) :
    writer.turns ≠ [] := by
  rcases (write_error wrote).2 with turn | ⟨full, fails⟩
  · exact turn
  · have empty := finite fails 0 full
    exact absurd (List.length_eq_zero_iff.mp (Nat.le_zero.mp empty)) offered

/-- Writing all octets comes to an end: the writer takes them all, or it refuses. -/
theorem writeAllWithin_cases (enough : octets.length + writer.turns.length ≤ fuel)
    (finite : writer.InterruptsFinitely octets.length) :
    (∃ after, writer.writeAllWithin fuel octets = (.ok (), after) ∧ writer.Takes octets after) ∨
    ∃ kind after taken, writer.writeAllWithin fuel octets = (.error kind, after) ∧
      writer.Refuses octets taken kind after := by
  induction fuel generalizing writer octets with
  | zero =>
    have none_offered : octets = [] := List.length_eq_zero_iff.mp (by omega)
    subst none_offered
    exact Or.inl ⟨writer, rfl, .done writer⟩
  | succ fuel inductionHypothesis =>
    cases octets with
    | nil => exact Or.inl ⟨writer, rfl, .done writer⟩
    | cons octet others =>
      have offered : octet :: others ≠ [] := List.cons_ne_nil _ _
      simp only [writeAllWithin]
      split
      · rename_i after wrote
        exact Or.inr ⟨_, after, [], rfl, .nothing offered wrote⟩
      · rename_i count between some_taken wrote
        obtain ⟨count, rfl⟩ := Nat.exists_eq_succ_of_ne_zero some_taken
        have finiteStill := finite.after_write wrote
        have fuelLeft : ((octet :: others).drop (count + 1)).length + between.turns.length ≤
            fuel := by
          obtain ⟨rfl, _⟩ := write_ok wrote
          simp only [having, List.length_drop, List.length_tail, List.length_cons] at enough ⊢
          omega
        rcases inductionHypothesis fuelLeft finiteStill with
          ⟨after, filled, takes⟩ | ⟨kind, after, taken, failed, refuses⟩
        · exact Or.inl ⟨after, filled, .some offered wrote takes⟩
        · exact Or.inr ⟨kind, after, _, failed, .some offered wrote refuses⟩
      · rename_i between wrote
        have some_turn := finite.some_turn offered wrote
        obtain ⟨same, _⟩ := write_error wrote
        have finiteStill : between.InterruptsFinitely (octet :: others).length := by
          rw [same]
          exact InterruptsFinitely.having (by rwa [List.length_nil, Nat.zero_add]) _
        have fuelLeft : (octet :: others).length + between.turns.length ≤ fuel := by
          have spent := List.length_pos_iff.mpr some_turn
          rw [same]
          simp only [having, List.length_tail]
          omega
        rcases inductionHypothesis fuelLeft finiteStill with
          ⟨after, filled, takes⟩ | ⟨kind, after, taken, failed, refuses⟩
        · exact Or.inl ⟨after, filled, .interrupted offered wrote takes⟩
        · exact Or.inr ⟨kind, after, taken, failed, .interrupted offered wrote refuses⟩
      · rename_i kind after lasting wrote
        exact Or.inr ⟨kind, after, [], rfl, .failed offered wrote lasting⟩

/-- Writing all octets is no more than that: if the writer takes them, it succeeds. -/
theorem Takes.writeAllWithin_eq (takes : writer.Takes octets after)
    (enough : octets.length + writer.turns.length ≤ fuel) :
    writer.writeAllWithin fuel octets = (.ok (), after) := by
  induction takes generalizing fuel with
  | done writer => cases fuel <;> rfl
  | @some writer between after octets count offered wrote _ inductionHypothesis =>
    have some_octets := List.length_pos_iff.mpr offered
    have fuelLeft : (octets.drop (count + 1)).length + between.turns.length ≤ fuel - 1 := by
      obtain ⟨rfl, _⟩ := write_ok wrote
      simp only [turns_having, List.length_drop, List.length_tail]
      omega
    obtain ⟨octet, others, rfl⟩ := List.exists_cons_of_ne_nil offered
    obtain ⟨fuel, rfl⟩ := Nat.exists_eq_succ_of_ne_zero (show fuel ≠ 0 by omega)
    simp only [writeAllWithin, wrote]
    exact inductionHypothesis fuelLeft
  | @interrupted writer between after octets offered wrote later inductionHypothesis =>
    have some_octets := List.length_pos_iff.mpr offered
    have takesAll : writer.Takes octets after := .interrupted offered wrote later
    have finite : writer.InterruptsFinitely octets.length := fun _ => takesAll.length_le_room
    have some_turn := List.length_pos_iff.mpr (finite.some_turn offered wrote)
    have fuelLeft : octets.length + between.turns.length ≤ fuel - 1 := by
      rw [(write_error wrote).1, turns_having, List.length_tail]
      omega
    obtain ⟨octet, others, rfl⟩ := List.exists_cons_of_ne_nil offered
    obtain ⟨fuel, rfl⟩ := Nat.exists_eq_succ_of_ne_zero (show fuel ≠ 0 by omega)
    simp only [writeAllWithin, wrote]
    exact inductionHypothesis fuelLeft

/-! ## Writers that take everything -/

/-- Whether a writer takes so many octets in the end, in however many writes: each of them
takes some octets or is interrupted, there is room for all, and the writer can be
flushed. -/
structure Obliging (writer : Writer) (count : Nat) : Prop where
  turns : ∀ turn ∈ writer.turns, turn ≠ .atMost 0 ∧ ∀ kind ≠ .interrupted, turn ≠ .failure kind
  perWrite : writer.perWrite ≠ some 0
  room : ∀ room ∈ writer.room, count ≤ room
  flushFailure : writer.flushFailure = none

private theorem Obliging.having (obliging : writer.Obliging (taken.length + count)) (spent : Nat) :
    (writer.having taken (writer.turns.drop spent)).Obliging count where
  turns := fun turn left => obliging.turns turn (List.mem_of_mem_drop left)
  perWrite := obliging.perWrite
  room := by
    intro room isRoom
    obtain ⟨whole, isWhole, rfl⟩ := Option.map_eq_some_iff.mp isRoom
    have enough := obliging.room whole isWhole
    omega
  flushFailure := obliging.flushFailure

/-- What neither the turn nor the room limits to nothing is not nothing. -/
theorem exists_take_succ {limit : Option Nat} (roomy : writer.room ≠ some 0)
    (limited : limit ≠ some 0) (offered : octets ≠ []) :
    ∃ count between, writer.take limit octets = (.ok (count + 1), between) := by
  have some_allowed : ∀ limit, limit ≠ some 0 → (allowed limit octets).length ≠ 0 := by
    intro limit limited none_allowed
    cases limit with
    | none => exact offered (List.length_eq_zero_iff.mp none_allowed)
    | some limit =>
      have cut := List.take_eq_nil_iff.mp (List.length_eq_zero_iff.mp none_allowed)
      rcases cut with rfl | none_offered
      · exact limited rfl
      · exact offered none_offered
  have tight : tighter writer.room limit ≠ some 0 := by
    cases isRoom : writer.room with
    | none => exact limited
    | some room =>
      rw [isRoom] at roomy
      cases limit with
      | none => exact roomy
      | some limit =>
        simp only [tighter, ne_eq, Option.some.injEq] at roomy limited ⊢
        omega
  obtain ⟨count, some_taken⟩ := Nat.exists_eq_succ_of_ne_zero (some_allowed _ tight)
  unfold take
  split
  · rename_i full _
    exact absurd full roomy
  · exact ⟨count, _, Prod.ext (congrArg Except.ok some_taken) rfl⟩

private theorem Obliging.write_cases (obliging : writer.Obliging count) (offered : octets ≠ [])
    (fits : octets.length ≤ count) :
    (∃ count between, writer.write octets = (.ok (count + 1), between)) ∨
      ∃ between, writer.write octets = (.error .interrupted, between) := by
  have roomy : writer.room ≠ some 0 := by
    intro full
    have none_fits := obliging.room 0 full
    exact offered (List.length_eq_zero_iff.mp (by omega))
  unfold write
  split
  · rename_i kind turns turn
    have lasting := (obliging.turns (.failure kind) (turn ▸ List.mem_cons_self)).2 kind
    by_cases isInterruption : kind = .interrupted
    · rw [isInterruption]
      exact Or.inr ⟨_, rfl⟩
    · exact absurd rfl (lasting isInterruption)
  · rename_i limit turns turn
    have limited := (obliging.turns (.atMost limit) (turn ▸ List.mem_cons_self)).1
    refine Or.inl (exists_take_succ roomy ?_ offered)
    intro none_allowed
    exact limited (congrArg WriteTurn.atMost (Option.some.inj none_allowed))
  · exact Or.inl (exists_take_succ roomy obliging.perWrite offered)

private theorem Obliging.not_refuses (obliging : writer.Obliging octets.length) :
    ¬ writer.Refuses octets taken kind after := by
  intro refuses
  induction refuses with
  | nothing offered wrote =>
    rcases obliging.write_cases offered (Nat.le_refl _) with ⟨_, _, took⟩ | ⟨_, interrupted⟩
    · exact absurd (wrote.symm.trans took) (by simp)
    · exact absurd (wrote.symm.trans interrupted) (by simp)
  | failed offered wrote lasting =>
    rcases obliging.write_cases offered (Nat.le_refl _) with ⟨_, _, took⟩ | ⟨_, interrupted⟩
    · exact absurd (wrote.symm.trans took) (by simp)
    · have sameKind := (Prod.mk.inj (wrote.symm.trans interrupted)).1
      exact lasting (Except.error.inj sameKind)
  | @some _ _ _ octets _ _ count offered wrote _ inductionHypothesis =>
    apply inductionHypothesis
    rw [(write_ok wrote).1, ← List.drop_one]
    apply Obliging.having
    rwa [← List.length_append, List.take_append_drop]
  | interrupted offered wrote _ inductionHypothesis =>
    apply inductionHypothesis
    rw [(write_error wrote).1, ← List.drop_one]
    apply Obliging.having
    rwa [List.length_nil, Nat.zero_add]

/-- Such a writer takes what it is offered, and can then take the rest. -/
theorem Obliging.exists_takes (obliging : writer.Obliging (octets.length + count)) :
    ∃ after, writer.Takes octets after ∧ after.Obliging count := by
  have roomy : ∀ room ∈ writer.room, octets.length ≤ room :=
    fun room isRoom => Nat.le_trans (Nat.le_add_right _ _) (obliging.room room isRoom)
  have enough : writer.Obliging octets.length :=
    ⟨obliging.turns, obliging.perWrite, roomy, obliging.flushFailure⟩
  rcases writeAllWithin_cases (Nat.le_refl _) (fun _ => roomy) with
    ⟨after, _, takes⟩ | ⟨kind, after, taken, _, refuses⟩
  · obtain ⟨spent, rfl⟩ := takes.exists_having
    exact ⟨_, takes, obliging.having spent⟩
  · exact absurd refuses enough.not_refuses

end ContentStore.Writer
