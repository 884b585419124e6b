import ContentStore.CommandLine.Run
import ContentStore.Proofs.Collector.Sweep
import ContentStore.Proofs.Text.Lines

/-!
Contract: files of marks.

Owns:
- `IsMark`, a line that is blank or is a fingerprint between blanks, and
  `AreMarks`, a file of such lines;
- `Names`, a text that stands on a line of a file between blanks;
- `markLines_cases` and `collect_cases`, by which a line that is no mark ends a
  collection before the remote is used, and otherwise the sweep has the
  fingerprints that the file names as its marks;
- that a file of marks names neither the key nor the entity tag of an object
  that is not live.

Does not own: what a sweep does with its marks.
-/

namespace ContentStore.CommandLine

open Text (TrimsTo)

/-- A line without anything but blanks, or with a fingerprint between blanks. -/
def IsMark (line : Bytes) : Prop :=
  ∃ text, TrimsTo line text ∧ (text = "" ∨ Fingerprint.WellFormed text)

/-- What line feeds separate in a file are marks. -/
def AreMarks (content : Bytes) : Prop :=
  ∀ line ∈ content.splitOn 0x0a, IsMark line

/-- Some line of a file is this text between blanks. -/
def HasLine (content : Bytes) (text : String) : Prop :=
  ∃ line ∈ content.splitOn 0x0a, TrimsTo line text

/-- Some line of a file is this text between blanks, and not only blanks. -/
def Names (content : Bytes) (text : String) : Prop :=
  text ≠ "" ∧ HasLine content text

/-! ## Lines of a file of marks -/

theorem readFingerprint_eq_ok_iff {text : String} {fingerprint : Fingerprint} :
    readFingerprint text = .ok fingerprint ↔ fingerprint.text = Text.trimmed text := by
  rw [← Fingerprint.parse_eq_ok_iff]
  unfold readFingerprint
  cases Fingerprint.parse (Text.trimmed text) with
  | error cause => simp [Except.mapError]
  | ok found => simp [Except.mapError]

/-- A line is read as what it says between blanks. -/
theorem readMark_eq_ok_iff (line : Bytes) (mark : Option Fingerprint) :
    readMark line = .ok mark ↔ TrimsTo line ((mark.map Fingerprint.text).getD "") := by
  unfold readMark
  cases decoded : Text.Utf8.text? line with
  | none =>
    constructor
    · intro read
      exact absurd read (by simp)
    · rintro ⟨whole, spelled, _⟩
      rw [Text.Utf8.text?_eq_some_iff.mpr spelled] at decoded
      exact absurd decoded (by simp)
  | some whole =>
    have spelled := Text.Utf8.text?_eq_some_iff.mp decoded
    have trims (text : String) : TrimsTo line text ↔ text = Text.trimmed whole :=
      ⟨fun other => other.unique ⟨whole, spelled, rfl⟩, fun same => ⟨whole, spelled, same.symm⟩⟩
    rw [trims]
    by_cases blank : Text.isBlankText whole = true
    · simp only [blank, if_true, Text.trimmed_eq_empty_iff.mpr blank]
      cases mark with
      | none => simp
      | some fingerprint => simp [Fingerprint.text_ne_empty fingerprint]
    · have visible : Text.trimmed whole ≠ "" := fun void =>
        blank (Text.trimmed_eq_empty_iff.mp void)
      simp only [blank, Bool.false_eq_true, if_false]
      cases mark with
      | none =>
        cases readFingerprint whole <;> simp [Except.map, visible.symm]
      | some fingerprint =>
        rw [Option.map_some, Option.getD_some, ← readFingerprint_eq_ok_iff]
        cases readFingerprint whole <;> simp [Except.map]

/-- A line is read if it is a mark, and fails otherwise. -/
theorem isMark_iff (line : Bytes) : IsMark line ↔ ∃ mark, readMark line = .ok mark := by
  constructor
  · rintro ⟨text, trims, rfl | wellFormed⟩
    · exact ⟨none, (readMark_eq_ok_iff line none).mpr trims⟩
    · exact ⟨some ⟨text, wellFormed⟩, (readMark_eq_ok_iff line _).mpr trims⟩
  · rintro ⟨mark, read⟩
    have trims := (readMark_eq_ok_iff line mark).mp read
    cases mark with
    | none => exact ⟨"", trims, Or.inl rfl⟩
    | some fingerprint => exact ⟨fingerprint.text, trims, Or.inr fingerprint.wellFormed⟩

private theorem isMark_withoutReturn (line : Bytes) :
    IsMark (Text.withoutReturn line) ↔ IsMark line := by
  simp only [IsMark, Text.trimsTo_withoutReturn]

/-- The lines as they are read are marks if those between line feeds are. -/
theorem areMarks_iff (content : Bytes) :
    AreMarks content ↔ ∀ line ∈ Text.lines content, IsMark line :=
  (Text.forall_mem_lines ⟨"", Text.trimsTo_nil, Or.inl rfl⟩ isMark_withoutReturn content).symm

private theorem names_iff (content : Bytes) (fingerprint : Fingerprint) :
    Names content fingerprint.text ↔
      ∃ line ∈ Text.lines content, TrimsTo line fingerprint.text := by
  have visible := Fingerprint.text_ne_empty fingerprint
  have notNothing : ¬ TrimsTo [] fingerprint.text := fun trims =>
    visible (trims.unique Text.trimsTo_nil)
  rw [Text.exists_mem_lines notNothing fun line => Text.trimsTo_withoutReturn]
  exact and_iff_right visible

section Collect

variable {Server : Type} {store : Store (Link Server)}

/-- A line that is a mark adds what it names to the marks of the collector. -/
theorem exists_markLines_cons (marking : store.collector.phase = .marking) {line : Bytes}
    (isMark : IsMark line) (rest : List Bytes) :
    ∃ next, markLines (line :: rest) store = markLines rest next ∧
      next.connection = store.connection ∧ next.collector.phase = .marking ∧
      ∀ fingerprint, fingerprint ∈ next.collector.marked ↔
        fingerprint ∈ store.collector.marked ∨ TrimsTo line fingerprint.text := by
  obtain ⟨mark, read⟩ := (isMark_iff line).mp isMark
  have trims := (readMark_eq_ok_iff line mark).mp read
  cases mark with
  | none =>
    refine ⟨store, by rw [markLines, read], rfl, marking, fun fingerprint => ?_⟩
    have notNamed : ¬ TrimsTo line fingerprint.text := fun trimsToo =>
      Fingerprint.text_ne_empty fingerprint (trimsToo.unique trims)
    simp only [notNamed, or_false]
  | some named =>
    let next : Store (Link Server) := { store with
      collector := { store.collector with marked := store.collector.marked.insert named } }
    have marked : store.mark named = (.ok (), next) := by
      simp only [Store.mark, Collector.mark, marking, next]
    refine ⟨next, by rw [markLines, read]; simp only [marked], rfl, marking, fun fingerprint => ?_⟩
    have same : TrimsTo line fingerprint.text ↔ fingerprint = named :=
      ⟨fun trimsToo => Fingerprint.ext_text (trimsToo.unique trims), fun same => same ▸ trims⟩
    rw [List.mem_insert_iff, same, or_comm]

/-- Marking lines leaves the remote alone.  It ends at a line that is no mark,
and otherwise the fingerprints on the lines have been marked. -/
theorem markLines_cases (marking : store.collector.phase = .marking) (lines : List Bytes) :
    (∃ failure after, markLines lines store = (.error failure, after) ∧
      after.connection = store.connection ∧ ¬ ∀ line ∈ lines, IsMark line) ∨
    ∃ after, markLines lines store = (.ok (), after) ∧
      after.connection = store.connection ∧ after.collector.phase = .marking ∧
      (∀ line ∈ lines, IsMark line) ∧
      ∀ fingerprint, fingerprint ∈ after.collector.marked ↔
        fingerprint ∈ store.collector.marked ∨
          ∃ line ∈ lines, TrimsTo line fingerprint.text := by
  induction lines generalizing store with
  | nil => exact Or.inr ⟨store, rfl, rfl, marking, by simp, by simp⟩
  | cons line rest inductionHypothesis =>
    by_cases isMark : IsMark line
    · obtain ⟨next, continues, sameConnection, marks, added⟩ :=
        exists_markLines_cons marking isMark rest
      rw [continues, ← sameConnection]
      rcases inductionHypothesis marks with ⟨failure, after, failed, unused, bad⟩ |
        ⟨after, read, unused, still, good, marked⟩
      · refine Or.inl ⟨failure, after, failed, unused, fun all => bad fun later member => ?_⟩
        exact all later (List.mem_cons_of_mem _ member)
      · refine Or.inr ⟨after, read, unused, still, List.forall_mem_cons.mpr ⟨isMark, good⟩,
          fun fingerprint => ?_⟩
        rw [marked, added, or_assoc, List.exists_mem_cons_iff]
    · cases read : readMark line with
      | ok mark => exact absurd ((isMark_iff line).mpr ⟨mark, read⟩) isMark
      | error failure =>
        refine Or.inl ⟨failure, store, by rw [markLines, read], rfl, fun all => ?_⟩
        exact isMark (all line List.mem_cons_self)

variable [Http.Server Server]

/-- A collection fails without the remote unless the file holds marks only; then
it is a sweep with the fingerprints that the file names. -/
theorem collect_cases (idle : store.collector.phase = .idle) (content : Bytes) (delete : Bool)
    (elapsed : UInt64) :
    (∃ failure, (collect (.ok content) delete elapsed store).1 = .error (.failure failure) ∧
      (collect (.ok content) delete elapsed store).2.connection = store.connection ∧
      ¬ AreMarks content) ∨
    ∃ marked, AreMarks content ∧
      (∀ fingerprint : Fingerprint, fingerprint ∈ marked ↔ Names content fingerprint.text) ∧
      (collect (.ok content) delete elapsed store).2.connection =
        (Collector.sweep marked delete store.connection).2 := by
  have started : store.startCollection =
      (.ok (), { store with collector := ⟨.marking, [], Tally.zero⟩ }) := by
    simp only [Store.startCollection, Collector.start, idle]
  have marking : ({ store with collector := ⟨.marking, [], Tally.zero⟩ } :
    Store (Link Server)).collector.phase = .marking := rfl
  unfold collect
  simp only [started, areMarks_iff]
  rcases markLines_cases marking (Text.lines content) with ⟨failure, after, failed, unused, bad⟩ |
    ⟨after, read, unused, still, good, marked⟩
  · rw [failed]
    exact Or.inl ⟨failure, rfl, unused, bad⟩
  · rw [read]
    refine Or.inr ⟨after.collector.marked, good, fun fingerprint => ?_, ?_⟩
    · rw [marked, names_iff]
      simp
    · simp only [Store.stopCollection, Collector.stop, Collector.stopWhile, Collector.beginSweep,
        still, unused]

end Collect

/-- In a file of marks every text that is named is a fingerprint. -/
theorem Names.wellFormed {content : Bytes} {text : String} (named : Names content text)
    (good : AreMarks content) : Fingerprint.WellFormed text := by
  obtain ⟨visible, line, member, trims⟩ := named
  obtain ⟨said, trimsToo, void | wellFormed⟩ := good line member
  · exact absurd ((trims.unique trimsToo).trans void) visible
  · rw [trims.unique trimsToo]
    exact wellFormed

/-- A file names neither the key nor the entity tag of an object that is not
live. -/
theorem not_names_of_dead {content : Bytes} {marked : List Fingerprint} {object : ListedObject}
    (good : AreMarks content)
    (isMarked : ∀ fingerprint : Fingerprint,
      fingerprint ∈ marked ↔ Names content fingerprint.text)
    (dead : Collector.isLive marked object = false) :
    ¬ Names content object.key ∧ ¬ Names content object.etag := by
  have spared (text : String) (named : Names content text)
      (belongs : text = object.key ∨ text = object.etag) : False := by
    have live := (Collector.isLive_iff marked object).mpr
      ⟨⟨text, named.wellFormed good⟩, (isMarked _).mpr named, belongs⟩
    rw [dead] at live
    exact Bool.false_ne_true live
  exact ⟨fun named => spared _ named (Or.inl rfl), fun named => spared _ named (Or.inr rfl)⟩

end ContentStore.CommandLine
