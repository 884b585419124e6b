import ContentStore.Proofs.Collector.Sweep

/-!
Contract: runs of a collector, in which calls come in any order and also while
a sweep lists the bucket.

Owns:
- `Call`, a call on a collector, and `Step`, which adds that others use the
  remote;
- `Session`, a collector and its remote together with the fingerprints that
  were marked with success since the last start that succeeded;
- `Session.Sound`, by which these fingerprints are the marks that the collector
  has while it is marking, and that every run keeps it;
- that calls made while a sweep lists the bucket are all refused;
- what passes the guard of a stop.

Does not own: what a sweep does to the remote.
-/

namespace ContentStore.Collector

/-! ### The guard of a stop -/

section Guard

variable {collector : Collector}

theorem beginSweep_of_refused (refused : collector.phase ≠ .marking) :
    collector.beginSweep = .error .notStarted := by
  unfold beginSweep
  split
  · rename_i marking
    exact absurd marking refused
  · rfl

theorem beginSweep_of_marking (marking : collector.phase = .marking) :
    collector.beginSweep =
      .ok (collector.marked, { collector with phase := .sweeping, marked := [] }) := by
  simp only [beginSweep, marking]

end Guard

/-! ### Calls -/

/-- A call on a collector.  A call that ends a session comes with the milliseconds
that the session took, and with the calls that are made on the same collector while
the bucket is being listed. -/
inductive Call where
  | start
  | mark (fingerprint : Fingerprint)
  | stop (delete : Bool) (elapsed : UInt64) (meanwhile : List Call)

/-- A collector in use. -/
structure Session (Connection : Type) where
  collector : Collector
  connection : Connection
  /-- The fingerprints marked with success since the last start that
  succeeded. -/
  marks : List Fingerprint

namespace Session

variable {Connection : Type} [Remote Connection]

/-- A collector before its first call. -/
def first (connection : Connection) : Session Connection :=
  ⟨Collector.idle, connection, []⟩

mutual

def perform : Call → Session Connection → Session Connection
  | .start, session =>
    match session.collector.start with
    | .ok collector => { session with collector := collector, marks := [] }
    | .error _ => session
  | .mark fingerprint, session =>
    match session.collector.mark fingerprint with
    | .ok collector =>
      { session with collector := collector, marks := fingerprint :: session.marks }
    | .error _ => session
  | .stop delete elapsed meanwhile, session =>
    let (_, marks, collector, connection) :=
      session.collector.stopWhile (fun sweeping used =>
        let disturbed := performAll meanwhile ⟨sweeping, used, session.marks⟩
        (disturbed.marks, disturbed.collector, disturbed.connection))
        delete elapsed session.connection
    ⟨collector, connection, marks.getD session.marks⟩

def performAll : List Call → Session Connection → Session Connection
  | [], session => session
  | call :: rest, session => performAll rest (perform call session)

end

/-- What happens to a session. -/
inductive Step (Connection : Type) where
  | call (call : Call)
  /-- Others use the remote, and leave it so. -/
  | elsewhere (connection : Connection)

def step (session : Session Connection) : Step Connection → Session Connection
  | .call call => session.perform call
  | .elsewhere connection => { session with connection := connection }

def run : List (Step Connection) → Session Connection → Session Connection
  | [], session => session
  | taken :: rest, session => run rest (session.step taken)

variable {session : Session Connection}

/-! ### Calls while a sweep lists the bucket -/

/-- Every call is refused while a sweep is in progress, and changes nothing. -/
theorem perform_of_sweeping (sweeping : session.collector.phase = .sweeping) (call : Call) :
    session.perform call = session := by
  cases call with
  | start => simp only [perform, Collector.start, sweeping]
  | mark fingerprint => simp only [perform, Collector.mark, sweeping]
  | stop delete elapsed meanwhile =>
    simp only [perform, Collector.stopWhile, Collector.beginSweep, sweeping, Option.getD_none]

/-- All calls are refused while a sweep is in progress, and change nothing. -/
theorem performAll_of_sweeping (sweeping : session.collector.phase = .sweeping)
    (calls : List Call) : session.performAll calls = session := by
  induction calls with
  | nil => rfl
  | cons call rest inductionHypothesis =>
    rw [performAll, perform_of_sweeping sweeping]
    exact inductionHypothesis

/-- A stop outside marking is refused, and changes nothing. -/
theorem perform_stop_of_refused (refused : session.collector.phase ≠ .marking) (delete : Bool)
    (elapsed : UInt64) (meanwhile : List Call) :
    session.perform (.stop delete elapsed meanwhile) = session := by
  simp only [perform, Collector.stopWhile, beginSweep_of_refused refused, Option.getD_none]

/-- A stop while marking sweeps with the marks of the collector, whatever calls
are made meanwhile, and ends the sweep. -/
theorem perform_stop_of_marking (marking : session.collector.phase = .marking) (delete : Bool)
    (elapsed : UInt64) (meanwhile : List Call) :
    session.perform (.stop delete elapsed meanwhile) =
      { session with
        collector := ({ session.collector with phase := .sweeping, marked := [] } :
          Collector).endSweep
            ((sweep session.collector.marked delete session.connection).1.map
              (Tally.lasting elapsed))
        connection := (sweep session.collector.marked delete session.connection).2 } := by
  simp only [perform, Collector.stopWhile, beginSweep_of_marking marking, performAll_of_sweeping,
    Option.getD_some]

/-! ### The marks of a session -/

/-- While the collector is marking it has the marks of the session. -/
structure Sound (session : Session Connection) : Prop where
  marked : session.collector.phase = .marking →
    ∀ fingerprint, fingerprint ∈ session.collector.marked ↔ fingerprint ∈ session.marks

omit [Remote Connection] in
theorem sound_first (connection : Connection) : (first connection).Sound where
  marked := by simp [first, idle]

/-- No marks are taken along into a sweep, and none come out of it. -/
theorem endSweep_phase_ne_marking {collector : Collector} (sweeping : collector.phase = .sweeping)
    (outcome : Except (Interruption StoreError) Tally) :
    (collector.endSweep outcome).phase ≠ .marking := by
  unfold endSweep
  split <;> simp [sweeping]

private theorem Sound.perform (sound : session.Sound) (call : Call) :
    (session.perform call).Sound := by
  cases call with
  | start =>
    simp only [Session.perform, Collector.start]
    split
    · rename_i collector begun
      split at begun
      · rw [← Except.ok.inj begun]
        exact ⟨fun _ => by simp⟩
      · exact absurd begun (by simp)
    · exact sound
  | mark fingerprint =>
    simp only [Session.perform, Collector.mark]
    split
    · rename_i collector noted
      split at noted
      · rename_i marking
        rw [← Except.ok.inj noted]
        refine ⟨fun _ other => ?_⟩
        rw [List.mem_insert_iff, List.mem_cons, sound.marked marking]
      · exact absurd noted (by simp)
    · exact sound
  | stop delete elapsed meanwhile =>
    by_cases marking : session.collector.phase = .marking
    · rw [perform_stop_of_marking marking]
      exact ⟨fun stillMarking => absurd stillMarking (endSweep_phase_ne_marking rfl _)⟩
    · rw [perform_stop_of_refused marking]
      exact sound

theorem Sound.step (sound : session.Sound) (taken : Step Connection) :
    (session.step taken).Sound := by
  cases taken with
  | call call => exact sound.perform call
  | elsewhere connection => exact ⟨sound.marked⟩

theorem Sound.run (sound : session.Sound) (steps : List (Step Connection)) :
    (run steps session).Sound := by
  induction steps generalizing session with
  | nil => exact sound
  | cons taken rest inductionHypothesis => exact inductionHypothesis (sound.step taken)

end Session

end ContentStore.Collector
