import ContentStore.Bucket
import ContentStore.Proofs.Collector.Deletions
import Mathlib.Data.List.Dedup

/-!
Contract: the phases of a collector, read off what its calls came to.

Owns:
- `Turn`, what a call came to, where the guard and the end of a stop are turns
  of their own, and `Turn.Lawful`, what each turn needs and leaves;
- `Watched`, a collector in use together with all its turns, in any order of
  calls and also of calls that are made while a sweep lists the bucket;
- `told`, the collector that the turns alone tell, and that the collector is
  this one after each of its turns;
- that a sweep is in progress between calls only after a sum of sizes that did not
  fit into a word;
- that a sweep comes to the same whatever calls are made meanwhile;
- that the marks of a `Session` are those that the turns tell.

Does not own: what a sweep counts and does to the remote.
-/

namespace ContentStore.Collector

open ListedObject (totalSize)

/-- What a call on a collector came to. -/
inductive Turn where
  | started (outcome : Except StoreError Unit)
  | marked (fingerprint : Fingerprint) (outcome : Except StoreError Unit)
  /-- The guard of a stop. -/
  | stopping (outcome : Except (Interruption StoreError) Unit)
  /-- The end of a stop that had passed its guard. -/
  | stopped (outcome : Except (Interruption StoreError) Tally)

/-- What a turn needs of the collector before it, and the collector after it.
A sweep may come to any counters. -/
inductive Turn.Lawful : Turn → Collector → Collector → Prop where
  | started {before : Collector} (idle : before.phase = .idle) :
      Lawful (.started (.ok ())) before ⟨.marking, [], Tally.zero⟩
  | startRefused {before : Collector} (busy : before.phase ≠ .idle) :
      Lawful (.started (.error .alreadyStarted)) before before
  | marked {before : Collector} (marking : before.phase = .marking) (fingerprint : Fingerprint) :
      Lawful (.marked fingerprint (.ok ())) before
        { before with marked := before.marked.insert fingerprint }
  | markRefused {before : Collector} (notMarking : before.phase ≠ .marking)
      (fingerprint : Fingerprint) :
      Lawful (.marked fingerprint (.error .notStarted)) before before
  | stopping {before : Collector} (marking : before.phase = .marking) :
      Lawful (.stopping (.ok ())) before { before with phase := .sweeping, marked := [] }
  | stopRefused {before : Collector} (notMarking : before.phase ≠ .marking) :
      Lawful (.stopping (.error (.failure .notStarted))) before before
  | stopped {before : Collector} (sweeping : before.phase = .sweeping) (tally : Tally) :
      Lawful (.stopped (.ok tally)) before ⟨.idle, [], tally⟩
  | sweepFailed {before : Collector} (sweeping : before.phase = .sweeping) (cause : StoreError) :
      Lawful (.stopped (.error (.failure cause))) before ⟨.idle, [], before.status⟩
  | sweepGivenUp {before : Collector} (sweeping : before.phase = .sweeping) :
      Lawful (.stopped (.error .overflow)) before before

/-! ### What the turns tell

Turns are listed with the latest first. -/

/-- The latest success decides the phase, and so does the end of a sweep that
failed.  A sweep that was given up goes on. -/
def phaseAfter : List Turn → Phase
  | [] => .idle
  | .started (.ok _) :: _ => .marking
  | .stopping (.ok _) :: _ => .sweeping
  | .stopped (.ok _) :: _ | .stopped (.error (.failure _)) :: _ => .idle
  | _ :: earlier => phaseAfter earlier

/-- The fingerprints marked with success since the last start that succeeded. -/
def marksAfter : List Turn → List Fingerprint
  | [] => []
  | .started (.ok _) :: _ => []
  | .marked fingerprint (.ok _) :: earlier => fingerprint :: marksAfter earlier
  | _ :: earlier => marksAfter earlier

/-- The result of the last stop that succeeded, if no start has succeeded since,
and else zero. -/
def statusAfter : List Turn → Tally
  | [] => Tally.zero
  | .started (.ok _) :: _ => Tally.zero
  | .stopped (.ok tally) :: _ => tally
  | _ :: earlier => statusAfter earlier

/-- The collector that the turns tell.  It has marks only while it is marking,
and each of them once. -/
def told (turns : List Turn) : Collector :=
  ⟨phaseAfter turns, if phaseAfter turns = .marking then (marksAfter turns).dedup else [],
    statusAfter turns⟩

/-- A lawful turn leaves what it adds to the tale. -/
theorem Turn.Lawful.eq_told {turn : Turn} {turns : List Turn} {after : Collector}
    (lawful : turn.Lawful (told turns) after) : after = told (turn :: turns) := by
  cases lawful with
  | started | startRefused | markRefused | stopping | stopRefused | stopped | sweepFailed
  | sweepGivenUp => rfl
  | marked marking fingerprint =>
    have marking : phaseAfter turns = .marking := marking
    simp only [told, phaseAfter, marksAfter, statusAfter, marking, if_true]
    by_cases known : fingerprint ∈ marksAfter turns
    · rw [List.dedup_cons_of_mem known, List.insert_of_mem (List.mem_dedup.mpr known)]
    · rw [List.dedup_cons_of_notMem known,
        List.insert_of_not_mem (fun among => known (List.mem_dedup.mp among))]

/-- A collector after the guard of a stop. -/
def whileSweeping (collector : Collector) : Collector :=
  { collector with phase := .sweeping, marked := [] }

/-- The end of a sweep is lawful whatever it comes to, and without marks.  It is in idle,
unless the sweep was given up; then nothing changes. -/
theorem endSweep_whileSweeping (collector : Collector)
    (outcome : Except (Interruption StoreError) Tally) :
    Turn.Lawful (.stopped outcome) collector.whileSweeping
        (collector.whileSweeping.endSweep outcome) ∧
      (outcome ≠ .error .overflow →
        (collector.whileSweeping.endSweep outcome).phase = .idle ∧
        (collector.whileSweeping.endSweep outcome).marked = []) ∧
      (outcome = .error .overflow →
        collector.whileSweeping.endSweep outcome = collector.whileSweeping) := by
  rcases outcome with (cause | _) | tally
  · exact ⟨.sweepFailed rfl cause, fun _ => ⟨rfl, rfl⟩, fun same => absurd same (by simp)⟩
  · exact ⟨.sweepGivenUp rfl, fun ended => absurd rfl ended, fun _ => rfl⟩
  · exact ⟨.stopped rfl tally, fun _ => ⟨rfl, rfl⟩, fun same => absurd same (by simp)⟩

/-! ### A collector in use -/

/-- A turn, and the collector after it. -/
structure Moment where
  turn : Turn
  collector : Collector

/-- The collector after some moments, the latest first. -/
def latest : List Moment → Collector
  | [] => idle
  | moment :: _ => moment.collector

/-- Each turn is lawful where it stands. -/
def Lawful : List Moment → Prop
  | [] => True
  | moment :: earlier => moment.turn.Lawful (latest earlier) moment.collector ∧ Lawful earlier

private theorem Lawful.latest_eq_told {moments : List Moment} (lawful : Lawful moments) :
    latest moments = told (moments.map (·.turn)) := by
  induction moments with
  | nil => rfl
  | cons moment earlier inductionHypothesis =>
    obtain ⟨turn, before⟩ := lawful
    rw [inductionHypothesis before] at turn
    exact turn.eq_told

private theorem Lawful.of_append {later earlier : List Moment}
    (lawful : Lawful (later ++ earlier)) :
    Lawful earlier := by
  induction later with
  | nil => exact lawful
  | cons moment rest inductionHypothesis => exact inductionHypothesis lawful.2

/-- A collector in use, with all that happened to it, the latest first. -/
structure Watched (Connection : Type) where
  collector : Collector
  connection : Connection
  moments : List Moment

namespace Watched

variable {Connection : Type}

/-- A collector before its first call. -/
def first (connection : Connection) : Watched Connection :=
  ⟨idle, connection, []⟩

def note (watched : Watched Connection) (turn : Turn) (collector : Collector) :
    Watched Connection :=
  ⟨collector, watched.connection, ⟨turn, collector⟩ :: watched.moments⟩

/-- Take the answer to a call that does not use the remote. -/
def settle (watched : Watched Connection) (turn : Except StoreError Unit → Turn) :
    Except StoreError Collector → Watched Connection
  | .ok collector => watched.note (turn (.ok ())) collector
  | .error cause => watched.note (turn (.error cause)) watched.collector

section Calls

variable [Remote Connection]

mutual

def perform : Call → Watched Connection → Watched Connection
  | .start, watched => watched.settle .started watched.collector.start
  | .mark fingerprint, watched =>
    watched.settle (.marked fingerprint) (watched.collector.mark fingerprint)
  | .stop delete elapsed meanwhile, watched =>
    let (outcome, disturbed, collector, connection) :=
      watched.collector.stopWhile (fun sweeping used =>
        let begun := { watched with connection := used }.note (.stopping (.ok ())) sweeping
        let disturbed := performAll meanwhile begun
        (disturbed.moments, disturbed.collector, disturbed.connection))
        delete elapsed watched.connection
    let stopped : Turn :=
      if disturbed.isSome then .stopped outcome else .stopping (outcome.map fun _ => ())
    ⟨collector, connection, ⟨stopped, collector⟩ :: disturbed.getD watched.moments⟩

def performAll : List Call → Watched Connection → Watched Connection
  | [], watched => watched
  | call :: rest, watched => performAll rest (perform call watched)

end

def step (watched : Watched Connection) : Session.Step Connection → Watched Connection
  | .call call => watched.perform call
  | .elsewhere connection => { watched with connection := connection }

def run : List (Session.Step Connection) → Watched Connection → Watched Connection
  | [], watched => watched
  | taken :: rest, watched => run rest (watched.step taken)

end Calls

/-! ### What each call comes to -/

/-- How a call is refused. -/
def refusal : Call → Turn
  | .start => .started (.error .alreadyStarted)
  | .mark fingerprint => .marked fingerprint (.error .notStarted)
  | .stop _ _ _ => .stopping (.error (.failure .notStarted))

/-- What calls leave that are refused one after the other. -/
def refusals (collector : Collector) (calls : List Call) : List Moment :=
  (calls.map fun call => ⟨refusal call, collector⟩).reverse

private theorem refusals_cons (collector : Collector) (call : Call) (rest : List Call)
    (moments : List Moment) :
    refusals collector (call :: rest) ++ moments =
      refusals collector rest ++ ⟨refusal call, collector⟩ :: moments := by
  simp only [refusals, List.map_cons, List.reverse_cons, List.append_assoc, List.singleton_append]

variable [Remote Connection] {watched : Watched Connection}

/-- A stop outside marking is refused. -/
theorem perform_stop_of_refused (refused : watched.collector.phase ≠ .marking) (delete : Bool)
    (elapsed : UInt64) (meanwhile : List Call) :
    watched.perform (.stop delete elapsed meanwhile) =
      watched.note (.stopping (.error (.failure .notStarted))) watched.collector := by
  simp only [perform, stopWhile, beginSweep_of_refused refused, Option.isSome_none,
    Bool.false_eq_true, if_false, Option.getD_none, note, Except.map]

private theorem perform_of_sweeping (sweeping : watched.collector.phase = .sweeping) (call : Call) :
    watched.perform call = watched.note (refusal call) watched.collector := by
  cases call with
  | start => simp only [perform, start, sweeping, settle, refusal]
  | mark fingerprint => simp only [perform, mark, sweeping, settle, refusal]
  | stop delete elapsed meanwhile =>
    exact perform_stop_of_refused (by simp [sweeping]) delete elapsed meanwhile

/-- While a sweep is in progress all that calls leave is their refusals. -/
theorem performAll_of_sweeping (sweeping : watched.collector.phase = .sweeping)
    (calls : List Call) :
    watched.performAll calls =
      { watched with moments := refusals watched.collector calls ++ watched.moments } := by
  induction calls generalizing watched with
  | nil => rfl
  | cons call rest inductionHypothesis =>
    have others : (watched.note (refusal call) watched.collector).performAll rest =
        ⟨watched.collector, watched.connection,
          refusals watched.collector rest ++ ⟨refusal call, watched.collector⟩ ::
            watched.moments⟩ :=
      inductionHypothesis sweeping
    rw [performAll, perform_of_sweeping sweeping, others, refusals_cons]

/-- A stop while marking takes the marks along, refuses all calls that are made
meanwhile, and ends the sweep. -/
theorem perform_stop_of_marking (marking : watched.collector.phase = .marking) (delete : Bool)
    (elapsed : UInt64) (meanwhile : List Call) :
    let sweeping := watched.collector.whileSweeping
    let outcome := (sweep watched.collector.marked delete watched.connection).1.map
      (Tally.lasting elapsed)
    watched.perform (.stop delete elapsed meanwhile) =
      ⟨sweeping.endSweep outcome,
        (sweep watched.collector.marked delete watched.connection).2,
        ⟨.stopped outcome, sweeping.endSweep outcome⟩ :: (refusals sweeping meanwhile ++
          ⟨.stopping (.ok ()), sweeping⟩ :: watched.moments)⟩ := by
  intro sweeping outcome
  have begun : watched.collector.beginSweep = .ok (watched.collector.marked, sweeping) :=
    beginSweep_of_marking marking
  simp only [perform, stopWhile, begun]
  rw [performAll_of_sweeping rfl]
  rfl

/-! ### Every turn is lawful -/

/-- Some sweep was given up. -/
def IsGivenUp (moments : List Moment) : Prop :=
  ∃ moment ∈ moments, moment.turn = .stopped (.error .overflow)

/-- All turns of a collector are lawful, and it is as the last of them left it.  If it is
sweeping a sweep was given up. -/
structure Sound (watched : Watched Connection) : Prop where
  lawful : Lawful watched.moments
  current : latest watched.moments = watched.collector
  betweenSweeps : watched.collector.phase = .sweeping → IsGivenUp watched.moments

omit [Remote Connection] in
/-- A lawful turn that does not begin a sweep keeps all lawful. -/
theorem Sound.note (sound : watched.Sound) {turn : Turn} {after : Collector}
    (lawful : turn.Lawful watched.collector after)
    (between : after.phase = .sweeping → watched.collector.phase = .sweeping) :
    (watched.note turn after).Sound where
  lawful := ⟨by rw [sound.current]; exact lawful, sound.lawful⟩
  current := rfl
  betweenSweeps := fun sweeping => by
    obtain ⟨moment, member, givenUp⟩ := sound.betweenSweeps (between sweeping)
    exact ⟨moment, List.mem_cons_of_mem _ member, givenUp⟩

private theorem lawful_refusals {collector : Collector} (sweeping : collector.phase = .sweeping)
    {moments : List Moment} (lawful : Lawful moments) (current : latest moments = collector)
    (calls : List Call) :
    Lawful (refusals collector calls ++ moments) ∧
      latest (refusals collector calls ++ moments) = collector := by
  have notIdle : collector.phase ≠ .idle := by simp [sweeping]
  have notMarking : collector.phase ≠ .marking := by simp [sweeping]
  induction calls generalizing moments with
  | nil => exact ⟨lawful, current⟩
  | cons call rest inductionHypothesis =>
    have refused : (refusal call).Lawful collector collector := by
      cases call with
      | start => exact .startRefused notIdle
      | mark fingerprint => exact .markRefused notMarking fingerprint
      | stop delete elapsed meanwhile => exact .stopRefused notMarking
    have longer : Lawful (⟨refusal call, collector⟩ :: moments) :=
      ⟨by rw [current]; exact refused, lawful⟩
    rw [refusals_cons]
    exact inductionHypothesis longer rfl

private theorem Sound.perform (sound : watched.Sound) (call : Call) :
    (watched.perform call).Sound := by
  cases call with
  | start =>
    simp only [Watched.perform, start]
    split
    · rename_i idle
      exact sound.note (.started idle) (by simp)
    · rename_i busy
      exact sound.note (.startRefused busy) fun same => same
  | mark fingerprint =>
    simp only [Watched.perform, mark]
    split
    · rename_i marking
      exact sound.note (.marked marking fingerprint) fun same => same
    · rename_i notMarking
      exact sound.note (.markRefused notMarking fingerprint) fun same => same
  | stop delete elapsed meanwhile =>
    by_cases marking : watched.collector.phase = .marking
    · rw [perform_stop_of_marking marking]
      have begun : Lawful (⟨.stopping (.ok ()), watched.collector.whileSweeping⟩ ::
          watched.moments) :=
        ⟨by rw [sound.current]; exact .stopping marking, sound.lawful⟩
      have sweeping : watched.collector.whileSweeping.phase = .sweeping := rfl
      obtain ⟨refused, current⟩ := lawful_refusals sweeping begun rfl meanwhile
      obtain ⟨ended, idle, _⟩ := endSweep_whileSweeping watched.collector
        ((sweep watched.collector.marked delete watched.connection).1.map (Tally.lasting elapsed))
      -- the refusals left the collector sweeping, so that the end of the sweep is lawful
      refine ⟨⟨?_, refused⟩, rfl, fun stillSweeping => ⟨_, List.mem_cons_self, ?_⟩⟩
      · rw [current]
        exact ended
      · by_contra other
        have finished := (idle fun overflow => other (congrArg Turn.stopped overflow)).1
        rw [finished] at stillSweeping
        exact absurd stillSweeping (by simp)
    · rw [perform_stop_of_refused marking]
      exact sound.note (.stopRefused marking) fun same => same

private theorem Sound.run (sound : watched.Sound) (steps : List (Session.Step Connection)) :
    (run steps watched).Sound := by
  induction steps generalizing watched with
  | nil => exact sound
  | cons taken rest inductionHypothesis =>
    cases taken with
    | call call => exact inductionHypothesis (sound.perform call)
    | elsewhere connection =>
      exact inductionHypothesis ⟨sound.lawful, sound.current, sound.betweenSweeps⟩

omit [Remote Connection] in
private theorem sound_first (connection : Connection) : (first connection).Sound :=
  ⟨trivial, rfl, by simp [first, idle]⟩

/-! ### Sizes that fit into a word -/

/-- The sizes that a remote lists sum up to less than a word. -/
def IsBounded (connection : Connection) : Prop :=
  ∀ objects, (Remote.list connection).1 = .ok objects → totalSize objects < 2 ^ 64

/-- So they do whenever a step is taken. -/
def BoundedAlong : List (Session.Step Connection) → Watched Connection → Prop
  | [], _ => True
  | taken :: rest, watched =>
    IsBounded watched.connection ∧ BoundedAlong rest (watched.step taken)

private theorem not_isBounded_of_overflow {marked : List Fingerprint} {delete : Bool}
    {connection : Connection} (overflow : (sweep marked delete connection).1 = .error .overflow) :
    ¬ IsBounded connection := by
  intro bounded
  obtain ⟨objects, listed, large⟩ := exists_of_overflow overflow
  exact large (Tally.fits_filter (bounded objects listed) (isLive marked))

omit [Remote Connection] in
private theorem overflow_of_map {outcome : Except (Interruption StoreError) Tally}
    {elapsed : UInt64}
    (overflow : outcome.map (Tally.lasting elapsed) = .error .overflow) :
    outcome = .error .overflow := by
  cases outcome with
  | error interruption => exact congrArg Except.error (Except.error.inj overflow)
  | ok tally => exact absurd overflow (by simp [Except.map])

/-- A call leaves no sweep in progress if there was none, and what is listed fits. -/
theorem perform_betweenSweeps (bounded : IsBounded watched.connection)
    (between : watched.collector.phase ≠ .sweeping) (call : Call) :
    (watched.perform call).collector.phase ≠ .sweeping := by
  cases call with
  | start =>
    simp only [perform, start]
    split
    · exact fun marking => absurd marking (by simp [settle, note])
    · exact between
  | mark fingerprint =>
    simp only [perform, mark]
    split <;> exact between
  | stop delete elapsed meanwhile =>
    by_cases marking : watched.collector.phase = .marking
    · obtain ⟨_, idle, _⟩ := endSweep_whileSweeping watched.collector
        ((sweep watched.collector.marked delete watched.connection).1.map (Tally.lasting elapsed))
      have finished := (idle fun overflow =>
        not_isBounded_of_overflow (overflow_of_map overflow) bounded).1
      rw [perform_stop_of_marking marking]
      simp [finished]
    · rw [perform_stop_of_refused marking]
      exact between

/-- A run leaves no sweep in progress if all that is listed on the way fits. -/
theorem run_betweenSweeps {steps : List (Session.Step Connection)}
    (bounded : BoundedAlong steps watched) (between : watched.collector.phase ≠ .sweeping) :
    (run steps watched).collector.phase ≠ .sweeping := by
  induction steps generalizing watched with
  | nil => exact between
  | cons taken rest inductionHypothesis =>
    obtain ⟨now, later⟩ := bounded
    cases taken with
    | call call => exact inductionHypothesis later (perform_betweenSweeps now between call)
    | elsewhere connection => exact inductionHypothesis later between

/-! ### The same run with the marks alone -/

/-- What is left of the turns is the fingerprints that they marked. -/
def session (watched : Watched Connection) : Session Connection :=
  ⟨watched.collector, watched.connection, marksAfter (watched.moments.map (·.turn))⟩

omit [Remote Connection] in
private theorem marksAfter_refusals (collector : Collector) (calls : List Call)
    (moments : List Moment) :
    marksAfter ((refusals collector calls ++ moments).map (·.turn)) =
      marksAfter (moments.map (·.turn)) := by
  induction calls generalizing moments with
  | nil => rfl
  | cons call rest inductionHypothesis =>
    have refused : marksAfter (refusal call :: moments.map (·.turn)) =
        marksAfter (moments.map (·.turn)) := by
      cases call <;> rfl
    rw [refusals_cons, inductionHypothesis, List.map_cons]
    exact refused

/-- The fingerprints that a session notes are those that the turns tell. -/
theorem session_perform (watched : Watched Connection) (call : Call) :
    (watched.perform call).session = watched.session.perform call := by
  cases call with
  | start =>
    simp only [perform, Session.perform, session]
    cases watched.collector.start <;> rfl
  | mark fingerprint =>
    simp only [perform, Session.perform, session]
    cases watched.collector.mark fingerprint <;> rfl
  | stop delete elapsed meanwhile =>
    by_cases marking : watched.collector.phase = .marking
    · have marked := marksAfter_refusals watched.collector.whileSweeping meanwhile
        (⟨.stopping (.ok ()), watched.collector.whileSweeping⟩ :: watched.moments)
      have stopped (outcome : Except (Interruption StoreError) Tally) (turns : List Turn) :
          marksAfter (.stopped outcome :: turns) = marksAfter turns := rfl
      rw [perform_stop_of_marking marking, Session.perform_stop_of_marking marking, session,
        session, List.map_cons, stopped, marked]
      rfl
    · rw [perform_stop_of_refused marking, Session.perform_stop_of_refused marking]
      rfl

theorem session_run (steps : List (Session.Step Connection)) (watched : Watched Connection) :
    (run steps watched).session = Session.run steps watched.session := by
  induction steps generalizing watched with
  | nil => rfl
  | cons taken rest inductionHypothesis =>
    have stepped : (watched.step taken).session = watched.session.step taken := by
      cases taken with
      | call call => exact session_perform watched call
      | elsewhere connection => rfl
    rw [run, Session.run, inductionHypothesis, stepped]

/-! ### The phases of a collector -/

/-- Calls come in any order, also while a sweep lists the bucket, and the remote
answers as it likes.  Each turn is lawful, and after it the collector is the one
that the turns so far tell; so a refused call changes nothing, there are marks
only while marking, and the status is that of the last sweep that succeeded.
The end of a sweep that is begun, its result and what it does to the remote are the
same whatever calls are made meanwhile, all of which are refused.  A sweep ends in
idle and without marks whether it succeeds or fails, so that none is in progress
between calls where all that is listed on the way fits into a word.  The one other
end is that the sizes which the remote listed do not: then the sweep is given up, and
stays in progress. -/
theorem collector_is_as_told (connection : Connection)
    (steps : List (Session.Step Connection)) :
    let watched := run steps (first connection)
    (∀ later moment earlier, watched.moments = later ++ moment :: earlier →
      moment.turn.Lawful (told (earlier.map (·.turn))) moment.collector ∧
      moment.collector = told (moment.turn :: earlier.map (·.turn))) ∧
    watched.collector = told (watched.moments.map (·.turn)) ∧
    (BoundedAlong steps (first connection) → watched.collector.phase ≠ .sweeping) ∧
    (watched.collector.phase = .sweeping → IsGivenUp watched.moments) ∧
    ∀ delete elapsed, watched.collector.phase = .marking →
      ∃ outcome after, ∃ ended : Collector,
        sweep watched.collector.marked delete watched.connection = (outcome, after) ∧
        (outcome ≠ .error .overflow → ended.phase = .idle ∧ ended.marked = []) ∧
        (IsBounded watched.connection → outcome ≠ .error .overflow) ∧
        (outcome = .error .overflow → ended = watched.collector.whileSweeping) ∧
        ∀ meanwhile, watched.perform (.stop delete elapsed meanwhile) =
          ⟨ended, after, ⟨.stopped (outcome.map (Tally.lasting elapsed)), ended⟩ ::
            (refusals watched.collector.whileSweeping meanwhile ++
              ⟨.stopping (.ok ()), watched.collector.whileSweeping⟩ :: watched.moments)⟩ := by
  intro watched
  have sound : watched.Sound := (sound_first connection).run steps
  refine ⟨?_, ?_, ?_, sound.betweenSweeps, ?_⟩
  · intro later moment earlier split
    have lawful : Lawful (moment :: earlier) := by
      have whole := sound.lawful
      rw [split] at whole
      exact whole.of_append
    refine ⟨?_, lawful.latest_eq_told⟩
    rw [← lawful.2.latest_eq_told]
    exact lawful.1
  · rw [← sound.current]
    exact sound.lawful.latest_eq_told
  · intro bounded
    exact run_betweenSweeps bounded (by simp [first, idle])
  · intro delete elapsed marking
    obtain ⟨_, idle, givenUp⟩ := endSweep_whileSweeping watched.collector
      ((sweep watched.collector.marked delete watched.connection).1.map (Tally.lasting elapsed))
    refine ⟨_, _, _, rfl, ?_, ?_, ?_, perform_stop_of_marking marking delete elapsed⟩
    · intro ended
      exact idle fun overflow => ended (overflow_of_map overflow)
    · intro bounded overflow
      exact not_isBounded_of_overflow overflow bounded
    · intro overflow
      exact givenUp (congrArg (Except.map (Tally.lasting elapsed)) overflow)

/-- A start and a stop that come during a sweep are refused, and the sweep ends
all the same. -/
example : ((run [.call .start, .call (.stop false 1 [.start, .stop true 0 []]), .call .start]
      (first (Bucket.empty "store"))).moments.map (·.collector.phase)) =
    [.marking, .idle, .sweeping, .sweeping, .sweeping, .marking] := by
  decide

end Watched

end ContentStore.Collector
