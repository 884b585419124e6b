import ContentStore.Proofs.Stream.Writing

/-!
Contract: how a copy ends, and what it has written then.

Owns:
- `Reader.blocks`, the octets that reads give one after the other, and that their
  content is that of the reader;
- `Writer.TakesEach`, by which a writer takes these blocks one by one;
- `CopyEnding`, the ways in which a copy comes to its end;
- that the content of a reader is copied whole, in whatever chunks it comes;
- that a copy that fails has written a beginning of the content, up to the first
  failure.

Does not own: where contents are kept.
-/

namespace ContentStore

/-! ## Blocks -/

/-- Octets in portions of at most so many. -/
def portions (limit : Nat) (octets : Bytes) : List Bytes :=
  if octets = [] ∨ limit = 0 then [] else octets.take limit :: portions limit (octets.drop limit)
termination_by octets.length
decreasing_by
  rename_i more
  rw [not_or] at more
  have some_octets := List.length_pos_iff.mpr more.1
  rw [List.length_drop]
  omega

private theorem portions_nil (limit : Nat) : portions limit [] = [] := by
  rw [portions, if_pos (Or.inl rfl)]

private theorem portions_of_ne_nil {limit : Nat} {octets : Bytes} (positive : 0 < limit)
    (some_octets : octets ≠ []) :
    portions limit octets = octets.take limit :: portions limit (octets.drop limit) := by
  rw [portions, if_neg]
  rintro (void | zero)
  · exact some_octets void
  · exact absurd zero (Nat.ne_of_gt positive)

private theorem flatten_portions {limit : Nat} (positive : 0 < limit) (octets : Bytes) :
    (portions limit octets).flatten = octets := by
  fun_induction portions limit octets with
  | case1 octets none_left =>
    rcases none_left with rfl | zero
    · rfl
    · exact absurd zero (Nat.ne_of_gt positive)
  | case2 octets _ inductionHypothesis =>
    rw [List.flatten_cons, inductionHypothesis, List.take_append_drop]

namespace Reader

variable {limit : Nat} {reader after : Reader} {octets : Bytes} {kind : IoKind}

/-- The octets that reads of at most `limit` octets give one after the other, before the end
of the input or a failure that lasts. -/
def blocks (limit : Nat) : Reader → List Bytes
  | [] => []
  | .failure kind :: rest => if kind = .interrupted then blocks limit rest else []
  | .octets content :: rest =>
    if content = [] then [] else portions limit content ++ blocks limit rest

private theorem flatten_blocks (positive : 0 < limit) (reader : Reader) :
    (reader.blocks limit).flatten = reader.content.1 := by
  induction reader with
  | nil => rfl
  | cons chunk rest inductionHypothesis =>
    cases chunk with
    | failure kind =>
      rw [blocks]
      split
      · rename_i isInterruption
        rw [isInterruption]
        exact inductionHypothesis
      · rename_i lasting
        rw [content_of_failure (show read limit (.failure kind :: rest) = _ from rfl) lasting]
        rfl
    | octets content =>
      rw [blocks]
      split
      · rename_i void
        rw [void]
        rfl
      · rename_i some_octets
        rw [content_octets rest some_octets, List.flatten_append, flatten_portions positive,
          inductionHypothesis]

private theorem content_ofContent (content : Bytes) :
    (ofContent content).content = (content, none) := by
  cases content with
  | nil => rfl
  | cons octet others =>
    rw [ofContent, content_octets [] (List.cons_ne_nil _ _)]
    exact Prod.ext (List.append_nil _) rfl

/-- No reader ends in an interruption. -/
theorem content_lasting (reader : Reader) : reader.content.2 ≠ some .interrupted := by
  induction reader with
  | nil => simp [content]
  | cons chunk rest inductionHypothesis =>
    cases chunk with
    | failure kind =>
      by_cases isInterruption : kind = .interrupted
      · rw [isInterruption]
        exact inductionHypothesis
      · rw [content_of_failure (show read bufferSize (.failure kind :: rest) = _ from rfl)
          isInterruption]
        exact fun same => isInterruption (Option.some.inj same)
    | octets content =>
      cases content with
      | nil => simp [content]
      | cons octet others => exact inductionHypothesis

/-! ### Reads -/

private theorem blocks_of_interrupted (given : reader.read limit = (.error .interrupted, after)) :
    reader.blocks limit = after.blocks limit := by
  match reader with
  | [] => simp [read] at given
  | .failure kind :: rest =>
    simp only [read, Prod.mk.injEq, Except.error.injEq] at given
    obtain ⟨rfl, rfl⟩ := given
    rw [blocks, if_pos rfl]
  | .octets chunk :: rest =>
    simp only [read] at given
    split at given <;> simp at given

/-- There are no blocks ahead of a reader without content. -/
theorem blocks_of_content (void : reader.content.1 = []) : reader.blocks limit = [] := by
  induction reader with
  | nil => rfl
  | cons chunk rest inductionHypothesis =>
    cases chunk with
    | failure kind =>
      rw [blocks]
      split
      · rename_i isInterruption
        rw [isInterruption] at void
        exact inductionHypothesis void
      · rfl
    | octets content =>
      rw [blocks]
      split
      · rfl
      · rename_i some_octets
        rw [content_octets rest some_octets] at void
        exact absurd (List.append_eq_nil_iff.mp void).1 some_octets

/-- What a read gives is the first block. -/
theorem blocks_of_read (positive : 0 < limit) (given : reader.read limit = (.ok octets, after))
    (some_octets : octets ≠ []) : reader.blocks limit = octets :: after.blocks limit := by
  match reader with
  | [] =>
    simp only [read, Prod.mk.injEq, Except.ok.injEq] at given
    exact absurd given.1.symm some_octets
  | .failure kind :: rest => simp [read] at given
  | .octets chunk :: rest =>
    simp only [read] at given
    split at given
    · rename_i short
      simp only [Prod.mk.injEq, Except.ok.injEq] at given
      obtain ⟨rfl, rfl⟩ := given
      rw [blocks, if_neg some_octets, portions_of_ne_nil positive some_octets,
        List.take_of_length_le short, List.drop_of_length_le short, portions_nil]
      rfl
    · rename_i long
      simp only [Prod.mk.injEq, Except.ok.injEq] at given
      obtain ⟨rfl, rfl⟩ := given
      have chunk_left : chunk.drop limit ≠ [] := by
        intro none_left
        exact long (List.drop_eq_nil_iff.mp none_left)
      have chunk_ahead : chunk ≠ [] := by
        rintro rfl
        exact chunk_left List.drop_nil
      rw [blocks, if_neg chunk_ahead, blocks, if_neg chunk_left,
        portions_of_ne_nil positive chunk_ahead, List.cons_append]

end Reader

/-! ## Blocks that are written -/

/-- A writer takes blocks, each of them whole before the next one. -/
inductive Writer.TakesEach : Writer → List Bytes → Writer → Prop where
  | done (writer : Writer) : TakesEach writer [] writer
  | block {writer between after : Writer} {block : Bytes} {later : List Bytes}
    (takes : writer.Takes block between) (takesLater : TakesEach between later after) :
    TakesEach writer (block :: later) after

/-- The ways in which a copy of some blocks, behind which the reader ends or fails, comes to
its end: block after block is written, until the writer refuses one of them, or the reader
fails, or the writer is flushed. -/
inductive CopyEnding (failure : Option IoKind) :
    Writer → List Bytes → Except IoKind Unit → Writer → Prop where
  | flushed {writer after : Writer} (ends : failure = none)
    (succeeds : writer.flush = (.ok (), after)) : CopyEnding failure writer [] (.ok ()) after
  | unflushed {writer after : Writer} {kind : IoKind} (ends : failure = none)
    (fails : writer.flush = (.error kind, after)) : CopyEnding failure writer [] (.error kind) after
  | unread {writer : Writer} {kind : IoKind} (fails : failure = some kind) :
    CopyEnding failure writer [] (.error kind) writer
  | refused {writer after : Writer} {block taken : Bytes} {later : List Bytes} {kind : IoKind}
    (refuses : writer.Refuses block taken kind after) :
    CopyEnding failure writer (block :: later) (.error kind) after
  | taken {writer between after : Writer} {block : Bytes} {later : List Bytes}
    {outcome : Except IoKind Unit} (takes : writer.Takes block between)
    (ending : CopyEnding failure between later outcome after) :
    CopyEnding failure writer (block :: later) outcome after

variable {reader : Reader} {writer filled after : Writer} {blocks : List Bytes}
  {content : Bytes} {failure : Option IoKind} {kind : IoKind} {outcome : Except IoKind Unit}
  {fuel : Nat}

private theorem Writer.TakesEach.exists_having (takes : writer.TakesEach blocks after) :
    ∃ spent, after = writer.having blocks.flatten (writer.turns.drop spent) := by
  induction takes with
  | done writer => exact ⟨0, (Writer.having_nil writer writer.turns).symm⟩
  | block takes _ inductionHypothesis =>
    obtain ⟨spentFirst, rfl⟩ := takes.exists_having
    obtain ⟨spentLater, rfl⟩ := inductionHypothesis
    rw [Writer.having_having, Writer.turns_having, List.drop_drop, List.flatten_cons]
    exact ⟨_, rfl⟩

/-- A writer that takes so many octets takes them in any blocks. -/
theorem Writer.Obliging.exists_takesEach (obliging : writer.Obliging blocks.flatten.length) :
    ∃ after, writer.TakesEach blocks after := by
  induction blocks generalizing writer with
  | nil => exact ⟨writer, .done writer⟩
  | cons block later inductionHypothesis =>
    rw [List.flatten_cons, List.length_append] at obliging
    obtain ⟨between, takes, obligingStill⟩ := obliging.exists_takes
    obtain ⟨after, takesLater⟩ := inductionHypothesis obligingStill
    exact ⟨after, .block takes takesLater⟩

private theorem flush_ok_of_none (calm : writer.flushFailure = none) :
    writer.flush = (.ok (), { writer with flushes := writer.flushes + 1 }) := by
  simp [Writer.flush, calm]

/-! ## Copies that succeed -/

/-- With enough reads, a copy succeeds if the writer takes all blocks and can be flushed. -/
theorem copyDigestWithin_of_takesEach (progress : Hash.Progress Hash.Md5.Words)
    (enough : reader.weight < fuel)
    (takes : writer.TakesEach (reader.blocks bufferSize) filled)
    (ends : reader.content.2 = none) (calm : filled.flushFailure = none) :
    ∃ digest, copyDigestWithin fuel reader writer progress =
      (.ok digest, { filled with flushes := filled.flushes + 1 }) := by
  induction fuel generalizing reader writer progress with
  | zero => exact absurd enough (Nat.not_lt_zero _)
  | succ fuel inductionHypothesis =>
    simp only [copyDigestWithin]
    split
    · rename_i rest interrupted
      have lighter := Reader.weight_read_lt_of_error interrupted
      rw [Reader.blocks_of_interrupted interrupted] at takes
      rw [Reader.content_of_interrupted interrupted] at ends
      exact inductionHypothesis _ (by omega) takes ends
    · rename_i kind rest lasting failed
      rw [Reader.content_of_failure failed lasting] at ends
      exact absurd ends (by simp)
    · rename_i rest ended
      rw [Reader.blocks_of_content (by rw [Reader.content_of_end (by decide) ended])] at takes
      cases takes with
      | done => exact ⟨_, by rw [flush_ok_of_none calm]⟩
    · rename_i octets rest some_octets given
      have lighter := Reader.weight_read_lt (by decide) given some_octets
      rw [Reader.blocks_of_read (by decide) given some_octets] at takes
      rw [Reader.content_of_read given some_octets] at ends
      cases takes with
      | block takesFirst takesLater =>
        have written : writer.writeAll octets = _ := takesFirst.writeAllWithin_eq (Nat.le_refl _)
        rw [written]
        exact inductionHypothesis _ (by omega) takesLater ends

private theorem copyDigest_of_takesEach (takes : writer.TakesEach (reader.blocks bufferSize) filled)
    (yields : reader.content = (content, none)) (calm : filled.flushFailure = none) :
    copyDigest reader writer =
      (.ok (Fingerprint.ofContent content), { filled with flushes := filled.flushes + 1 }) := by
  obtain ⟨digest, copied⟩ := copyDigestWithin_of_takesEach
    Hash.Md5.scheme.start (Nat.lt_succ_self _) takes (by rw [yields]) calm
  have succeeds : copyDigest reader writer =
      (.ok (Fingerprint.ofDigest digest), { filled with flushes := filled.flushes + 1 }) := by
    unfold copyDigest
    rw [copied]
    rfl
  obtain ⟨_, _, hashed⟩ := copyDigest_ok succeeds
  rw [yields] at hashed
  rw [succeeds, hashed]

/-- A content is copied whole and gets its fingerprint, in whatever chunks it is read, by
whatever writes it is taken, and the writer is flushed once after that.  Short writes and
interrupted writes take it, if there is room for it. -/
theorem copies_depend_on_the_content_alone (content : Bytes) :
    (∀ (reader : Reader) (writer filled : Writer), reader.content = (content, none) →
      writer.TakesEach (reader.blocks bufferSize) filled → writer.flushFailure = none →
      ∃ after, copyDigest reader writer = (.ok (Fingerprint.ofContent content), after) ∧
        filled.written = writer.written ++ content ∧ filled.flushes = writer.flushes ∧
        filled.flush = (.ok (), after) ∧ after.written = filled.written ∧
        after.flushes = filled.flushes + 1) ∧
    (∀ (reader : Reader) (writer : Writer), reader.content = (content, none) →
      writer.Obliging content.length →
      ∃ filled, writer.TakesEach (reader.blocks bufferSize) filled) ∧
    (∀ reader : Reader, reader.content = (content, none) →
      digestReader reader = .ok (Fingerprint.ofContent content)) ∧
    digestReader (.ofContent content) = .ok (Fingerprint.ofContent content) := by
  have hashed : ∀ reader : Reader, reader.content = (content, none) →
      digestReader reader = .ok (Fingerprint.ofContent content) := by
    intro reader yields
    have copied := copyDigest_willing Writer.willing_unlimited reader
    rw [yields] at copied
    exact copied
  refine ⟨?_, ?_, hashed, hashed _ (Reader.content_ofContent content)⟩
  · intro reader writer filled yields takes calm
    obtain ⟨spent, same⟩ := takes.exists_having
    have calmStill : filled.flushFailure = none := by rw [same, Writer.flushFailure_having, calm]
    have flushed := flush_ok_of_none calmStill
    have whole := Reader.flatten_blocks (show 0 < bufferSize by decide) reader
    rw [yields] at whole
    refine ⟨_, copyDigest_of_takesEach takes yields calmStill, ?_, ?_, flushed, rfl, rfl⟩
    · rw [same, Writer.written_having, whole]
    · rw [same, Writer.flushes_having]
  · intro reader writer yields obliging
    apply Writer.Obliging.exists_takesEach
    rwa [Reader.flatten_blocks (by decide), yields]

/-- More octets than a block holds. -/
def longChunk : Bytes :=
  List.replicate 65537 97

private theorem length_longChunk : longChunk.length = 65537 :=
  List.length_replicate

/-- A long chunk, and an interruption before the next one; what follows the empty chunk is behind
the end. -/
def longReader : Reader :=
  [.octets longChunk, .failure .interrupted, .octets [98, 99], .octets [], .octets [100]]

/-- A writer of short writes, some of them interrupted, with room for `longReader` and no more. -/
def shortWriter : Writer :=
  { Writer.unlimited with
    turns := [.failure .interrupted, .atMost 3, .failure .interrupted]
    perWrite := some 40000
    room := some 65539
    whenFull := some .interrupted }

private theorem content_longReader : longReader.content = (longChunk ++ [98, 99], none) := by
  have some_octets : longChunk ≠ [] := by
    apply List.ne_nil_of_length_pos
    rw [length_longChunk]
    decide
  unfold longReader
  rw [Reader.content_octets _ some_octets]
  rfl

private theorem obliging_shortWriter : shortWriter.Obliging (longChunk ++ [98, 99]).length where
  turns := by simp [shortWriter, eq_comm]
  perWrite := by decide
  room := by
    rw [List.length_append, length_longChunk]
    decide
  flushFailure := rfl

theorem long_chunk_is_copied_by_short_writes :
    longReader.content = (longChunk ++ [98, 99], none) ∧
    shortWriter.Obliging (longChunk ++ [98, 99]).length ∧ shortWriter.flushFailure = none ∧
    (∃ after, copyDigest longReader shortWriter =
        (.ok (Fingerprint.ofContent (longChunk ++ [98, 99])), after) ∧
      after.written = longChunk ++ [98, 99] ∧ after.flushes = 1) ∧
    digestReader longReader = .ok (Fingerprint.ofContent (longChunk ++ [98, 99])) := by
  obtain ⟨copies, takes, hashes, _⟩ :=
    copies_depend_on_the_content_alone (longChunk ++ [98, 99])
  obtain ⟨filled, takesEach⟩ := takes longReader shortWriter content_longReader obliging_shortWriter
  obtain ⟨after, copied, written, unflushed, _, sameWritten, flushed⟩ :=
    copies longReader shortWriter filled content_longReader takesEach rfl
  refine ⟨content_longReader, obliging_shortWriter, rfl, ⟨after, copied, ?_, ?_⟩,
    hashes longReader content_longReader⟩
  · rw [sameWritten, written]
    rfl
  · rw [flushed, unflushed]
    rfl

/-! ## Copies that fail -/

/-- With enough reads, a copy comes to an end, if the writer does not interrupt for ever. -/
theorem copyDigestWithin_ending (progress : Hash.Progress Hash.Md5.Words)
    (enough : reader.weight < fuel)
    (finite : writer.InterruptsFinitely reader.content.1.length) :
    CopyEnding reader.content.2 writer (reader.blocks bufferSize)
      ((copyDigestWithin fuel reader writer progress).1.map fun _ => ())
      (copyDigestWithin fuel reader writer progress).2 := by
  induction fuel generalizing reader writer progress with
  | zero => exact absurd enough (Nat.not_lt_zero _)
  | succ fuel inductionHypothesis =>
    simp only [copyDigestWithin]
    split
    · rename_i rest interrupted
      have lighter := Reader.weight_read_lt_of_error interrupted
      rw [Reader.content_of_interrupted interrupted] at finite ⊢
      rw [Reader.blocks_of_interrupted interrupted]
      exact inductionHypothesis _ (by omega) finite
    · rename_i kind rest lasting failed
      have content := Reader.content_of_failure failed lasting
      rw [Reader.blocks_of_content (by rw [content]), content]
      exact .unread rfl
    · rename_i rest ended
      have content := Reader.content_of_end (by decide) ended
      rw [Reader.blocks_of_content (by rw [content]), content]
      split
      · rename_i flushed succeeds
        exact .flushed rfl succeeds
      · rename_i kind flushed fails
        exact .unflushed rfl fails
    · rename_i octets rest some_octets given
      have lighter := Reader.weight_read_lt (by decide) given some_octets
      rw [Reader.content_of_read given some_octets] at finite ⊢
      rw [Reader.blocks_of_read (by decide) given some_octets]
      rw [List.length_append] at finite
      rcases Writer.writeAllWithin_cases (Nat.le_refl _) (finite.mono (Nat.le_add_right _ _)) with
        ⟨filled, written, takes⟩ | ⟨kind, failed, taken, written, refuses⟩
      · have succeeds : writer.writeAll octets = _ := written
        obtain ⟨spent, same⟩ := takes.exists_having
        rw [succeeds]
        refine .taken takes (inductionHypothesis _ (by omega) ?_)
        rw [same]
        exact finite.having _
      · have fails : writer.writeAll octets = _ := written
        rw [fails]
        exact .refused refuses

private theorem copyDigest_ending (finite : writer.InterruptsFinitely reader.content.1.length) :
    CopyEnding reader.content.2 writer (reader.blocks bufferSize)
      ((copyDigest reader writer).1.map fun _ => ()) (copyDigest reader writer).2 := by
  have ending := copyDigestWithin_ending Hash.Md5.scheme.start
    (Nat.lt_succ_self reader.weight) finite
  unfold copyDigest
  generalize copyDigestWithin (reader.weight + 1) reader writer Hash.Md5.scheme.start = within
    at ending ⊢
  obtain ⟨outcome, reached⟩ := within
  cases outcome <;> exact ending

/-- A copy that fails has written a beginning of the blocks: those that the writer took before it
refused one of them, or all of them before the reader failed or the writer was flushed. -/
theorem CopyEnding.error_cases (ending : CopyEnding failure writer blocks (.error kind) after) :
    ∃ part rest, blocks.flatten = part ++ rest ∧ after.written = writer.written ++ part ∧
      ((rest ≠ [] ∧ kind ≠ .interrupted ∧ after.flushes = writer.flushes ∧
          ∃ before block later taken between, blocks = before ++ block :: later ∧
            part = before.flatten ++ taken ∧ writer.TakesEach before between ∧
            between.Refuses block taken kind after) ∨
        (rest = [] ∧ failure = some kind ∧ after.flushes = writer.flushes) ∨
        rest = [] ∧ failure = none ∧ writer.flushFailure = some kind ∧
          after.flushes = writer.flushes + 1) := by
  generalize failed : Except.error kind = outcome at ending
  induction ending with
  | flushed _ _ => exact absurd failed (by simp)
  | @unflushed writer after cause ends fails =>
    obtain rfl := Except.error.inj failed
    refine ⟨[], [], rfl, ?_, Or.inr (Or.inr ⟨rfl, ends, ?_⟩)⟩
    · rw [Writer.written_flush fails, List.append_nil]
    · unfold Writer.flush at fails
      split at fails
      · rename_i reported isFailure
        obtain ⟨sameKind, rfl⟩ := Prod.mk.inj fails
        exact ⟨isFailure.trans (congrArg some (Except.error.inj sameKind)), rfl⟩
      · exact absurd fails (by simp)
  | @unread writer cause fails =>
    obtain rfl := Except.error.inj failed
    exact ⟨[], [], rfl, (List.append_nil _).symm, Or.inr (Or.inl ⟨rfl, fails, rfl⟩)⟩
  | @refused writer after block taken later cause refuses =>
    obtain rfl := Except.error.inj failed
    obtain ⟨rest, some_rest, apart⟩ := refuses.exists_rest
    obtain ⟨turns, same⟩ := refuses.exists_having
    refine ⟨taken, rest ++ later.flatten, ?_, ?_, Or.inl ⟨?_, refuses.lasting, ?_,
      [], block, later, taken, writer, rfl, rfl, .done writer, refuses⟩⟩
    · rw [List.flatten_cons, apart, List.append_assoc]
    · rw [same, Writer.written_having]
    · exact List.append_ne_nil_of_left_ne_nil some_rest _
    · rw [same, Writer.flushes_having]
  | @taken writer between after block later outcome takes _ inductionHypothesis =>
    obtain ⟨spent, same⟩ := takes.exists_having
    obtain ⟨part, rest, apart, written, cases⟩ := inductionHypothesis failed
    have keptFlushes : between.flushes = writer.flushes := by rw [same, Writer.flushes_having]
    have keptFailure : between.flushFailure = writer.flushFailure := by
      rw [same, Writer.flushFailure_having]
    rw [keptFlushes, keptFailure] at cases
    refine ⟨block ++ part, rest, ?_, ?_, ?_⟩
    · rw [List.flatten_cons, apart, List.append_assoc]
    · rw [written, same, Writer.written_having, List.append_assoc]
    · rcases cases with ⟨some_rest, lasting, unflushed, before, refusing, others, taken, last,
        isApart, isPart, takesBefore, refuses⟩ | atEnd
      · refine Or.inl ⟨some_rest, lasting, unflushed, block :: before, refusing, others, taken,
          last, ?_, ?_, .block takes takesBefore, refuses⟩
        · rw [isApart, List.cons_append]
        · rw [isPart, List.flatten_cons, List.append_assoc]
      · exact Or.inr atEnd

/-- A copy comes to an end, unless the writer interrupts it for ever; and if it fails, the writer
has a beginning of the content, and the failure is the first one: that of a write, when all that
was read before was taken and not all of this block was; that of the reader, when all that it gave
was taken; or that of the flush at the end.  Only the last one can be an interruption, and only
then the writer was flushed. -/
theorem failed_copy_reports_the_first_failure
    (finite : writer.InterruptsFinitely reader.content.1.length) :
    CopyEnding reader.content.2 writer (reader.blocks bufferSize)
      ((copyDigest reader writer).1.map fun _ => ()) (copyDigest reader writer).2 ∧
    ∀ kind after, copyDigest reader writer = (.error kind, after) →
      ∃ part rest, reader.content.1 = part ++ rest ∧ after.written = writer.written ++ part ∧
        ((rest ≠ [] ∧ kind ≠ .interrupted ∧ after.flushes = writer.flushes ∧
            ∃ before block later taken between,
              reader.blocks bufferSize = before ++ block :: later ∧
              part = before.flatten ++ taken ∧ writer.TakesEach before between ∧
              between.Refuses block taken kind after) ∨
          (rest = [] ∧ reader.content.2 = some kind ∧ kind ≠ .interrupted ∧
            after.flushes = writer.flushes) ∨
          rest = [] ∧ reader.content.2 = none ∧ writer.flushFailure = some kind ∧
            after.flushes = writer.flushes + 1) := by
  have ending := copyDigest_ending finite
  refine ⟨ending, ?_⟩
  intro kind after failed
  rw [failed] at ending
  obtain ⟨part, rest, apart, written, cases⟩ := CopyEnding.error_cases ending
  rw [Reader.flatten_blocks (by decide)] at apart
  refine ⟨part, rest, apart, written, ?_⟩
  rcases cases with refused | ⟨none_left, fails, unflushed⟩ | unflushed
  · exact Or.inl refused
  · have lasting : kind ≠ .interrupted := by
      rintro rfl
      exact reader.content_lasting fails
    exact Or.inr (Or.inl ⟨none_left, fails, lasting, unflushed⟩)
  · exact Or.inr (Or.inr unflushed)

/-- A writer with room for two octets, which then fails. -/
def smallWriter : Writer :=
  { Writer.unlimited with
    turns := [.failure .interrupted, .atMost 1]
    room := some 2
    whenFull := some .brokenPipe }

/-- A reader that fails in the end. -/
def brokenReader : Reader :=
  [.octets [1], .failure .interrupted, .octets [2, 3], .failure .connectionReset]

theorem full_writer_fails_before_the_reader :
    smallWriter.InterruptsFinitely brokenReader.content.1.length ∧
    copyDigest brokenReader smallWriter =
      (.error .brokenPipe, { smallWriter with turns := [], room := some 0, reached := [2, 1] }) ∧
    ∃ part rest, brokenReader.content.1 = part ++ rest ∧ [1, 2] = part ∧ rest ≠ [] := by
  have finite : smallWriter.InterruptsFinitely brokenReader.content.1.length := by decide
  have failed : copyDigest brokenReader smallWriter =
      (.error .brokenPipe, { smallWriter with turns := [], room := some 0, reached := [2, 1] }) :=
    rfl
  obtain ⟨_, first⟩ := failed_copy_reports_the_first_failure finite
  obtain ⟨part, rest, apart, written, cases⟩ := first _ _ failed
  refine ⟨finite, failed, part, rest, apart, written, ?_⟩
  rcases cases with ⟨some_rest, _⟩ | ⟨_, fails, _⟩ | ⟨_, ends, _⟩
  · exact some_rest
  · exact absurd fails (by decide)
  · exact absurd ends (by decide)

end ContentStore
