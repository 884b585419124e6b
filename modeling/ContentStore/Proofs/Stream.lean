import ContentStore.Stream

/-!
Contract: when a copy succeeds, and what it has then copied and hashed.

Owns:
- how one read moves octets from the content of a reader to its caller;
- what writes that succeed add to what has reached a writer;
- `copyDigest_ok`, by which a copy that succeeds has written the content of the
  reader to its end, and has given the fingerprint of that content;
- `copyDigest_willing`, by which a copy into a writer that takes all octets fails
  only as its reader does.

Does not own: copies into writers that refuse octets.
-/

namespace ContentStore

/-! ## Reads -/

namespace Reader

variable {limit : Nat} {reader after : Reader} {octets : Bytes}

/-- An interrupted read takes nothing away from the content. -/
theorem content_of_interrupted (given : reader.read limit = (.error .interrupted, after)) :
    reader.content = after.content := by
  match reader with
  | [] => simp [read] at given
  | .failure kind :: rest =>
    simp only [read, Prod.mk.injEq, Except.error.injEq] at given
    obtain ⟨rfl, rfl⟩ := given
    rfl
  | .octets chunk :: rest =>
    simp only [read] at given
    split at given <;> simp at given

/-- A read that gives nothing is at the end of the content. -/
theorem content_of_end (positive : 0 < limit) (given : reader.read limit = (.ok [], after)) :
    reader.content = ([], none) := by
  match reader with
  | [] => rfl
  | .failure kind :: rest => simp [read] at given
  | .octets chunk :: rest =>
    simp only [read] at given
    split at given
    · simp only [Prod.mk.injEq, Except.ok.injEq] at given
      obtain ⟨rfl, rfl⟩ := given
      rfl
    · rename_i long
      simp only [Prod.mk.injEq, Except.ok.injEq, List.take_eq_nil_iff] at given
      rcases given.1 with none_asked | empty
      · exact absurd none_asked (Nat.ne_of_gt positive)
      · rw [empty] at long
        exact absurd (Nat.zero_le limit) long

/-- A read that fails otherwise is where the content ends. -/
theorem content_of_failure {kind : IoKind} (given : reader.read limit = (.error kind, after))
    (lasting : kind ≠ .interrupted) : reader.content = ([], some kind) := by
  match reader with
  | [] => simp [read] at given
  | .failure cause :: rest =>
    simp only [read, Prod.mk.injEq, Except.error.injEq] at given
    obtain ⟨rfl, rfl⟩ := given
    cases cause
    case interrupted => exact absurd rfl lasting
    all_goals rfl
  | .octets chunk :: rest =>
    simp only [read] at given
    split at given <;> simp at given

/-- What a reader with some octets ahead yields begins with these. -/
theorem content_octets (rest : Reader) (some_octets : octets ≠ []) :
    content (.octets octets :: rest) = (octets ++ rest.content.1, rest.content.2) := by
  cases octets with
  | nil => exact absurd rfl some_octets
  | cons octet others => rfl

/-- The octets that a read gives are the beginning of the content. -/
theorem content_of_read (given : reader.read limit = (.ok octets, after))
    (some_octets : octets ≠ []) :
    reader.content = (octets ++ after.content.1, after.content.2) := by
  match reader with
  | [] =>
    simp only [read, Prod.mk.injEq, Except.ok.injEq] at given
    exact absurd given.1.symm some_octets
  | .failure kind :: rest => simp [read] at given
  | .octets chunk :: rest =>
    simp only [read] at given
    split at given
    · simp only [Prod.mk.injEq, Except.ok.injEq] at given
      obtain ⟨rfl, rfl⟩ := given
      exact content_octets rest some_octets
    · rename_i long
      simp only [Prod.mk.injEq, Except.ok.injEq] at given
      obtain ⟨rfl, rfl⟩ := given
      have chunk_left : chunk.drop limit ≠ [] := by
        intro empty
        exact long (List.drop_eq_nil_iff.mp empty)
      have chunk_ahead : chunk ≠ [] := by
        rintro rfl
        exact chunk_left List.drop_nil
      rw [content_octets _ chunk_ahead, content_octets _ chunk_left, ← List.append_assoc,
        List.take_append_drop]

end Reader

/-! ## Writes -/

namespace Writer

variable {writer after : Writer} {octets : Bytes} {limit : Option Nat} {count fuel : Nat}
  {kind : IoKind}

/-- What a limit allows is as many of the octets as it allows. -/
theorem allowed_eq_take (limit : Option Nat) (octets : Bytes) :
    allowed limit octets = octets.take (allowed limit octets).length := by
  cases limit with
  | none => exact List.take_length.symm
  | some limit =>
    show octets.take limit = octets.take (octets.take limit).length
    rw [List.length_take, ← List.take_eq_take_min]

/-- A write that takes some octets takes the first ones. -/
theorem written_take (taken : writer.take limit octets = (.ok count, after)) :
    after.written = writer.written ++ octets.take count := by
  unfold take at taken
  split at taken
  · exact absurd taken (by simp)
  · simp only [Prod.mk.injEq, Except.ok.injEq] at taken
    obtain ⟨rfl, rfl⟩ := taken
    rw [← allowed_eq_take]
    simp [written]

private theorem written_write (taken : writer.write octets = (.ok count, after)) :
    after.written = writer.written ++ octets.take count := by
  unfold write at taken
  split at taken
  · exact absurd taken (by simp)
  · exact (written_take taken).trans rfl
  · exact written_take taken

private theorem written_of_error (failed : writer.write octets = (.error kind, after)) :
    after.written = writer.written := by
  have kept {limit : Option Nat} {writer : Writer}
      (failed : writer.take limit octets = (.error kind, after)) :
      after.written = writer.written := by
    unfold take at failed
    split at failed
    · rw [← (Prod.mk.inj failed).2]
    · exact absurd failed (by simp)
  unfold write at failed
  split at failed
  · rw [← (Prod.mk.inj failed).2]
    rfl
  · exact (kept failed).trans rfl
  · exact kept failed

/-- Writing all octets, if it succeeds, has written them all. -/
theorem written_writeAllWithin (filled : writer.writeAllWithin fuel octets = (.ok (), after)) :
    after.written = writer.written ++ octets := by
  induction fuel generalizing writer octets with
  | zero =>
    cases octets with
    | nil =>
      rw [← (Prod.mk.inj filled).2, List.append_nil]
    | cons octet others => simp [writeAllWithin] at filled
  | succ fuel inductionHypothesis =>
    cases octets with
    | nil =>
      rw [← (Prod.mk.inj filled).2, List.append_nil]
    | cons octet others =>
      simp only [writeAllWithin] at filled
      split at filled
      · exact absurd filled (by simp)
      · rename_i taken between _ written
        calc after.written
            = between.written ++ (octet :: others).drop taken := inductionHypothesis filled
          _ = (writer.written ++ (octet :: others).take taken) ++ (octet :: others).drop taken := by
            rw [written_write written]
          _ = writer.written ++ (octet :: others) := by
            rw [List.append_assoc, List.take_append_drop]
      · rename_i between interrupted
        rw [inductionHypothesis filled, written_of_error interrupted]
      · exact absurd filled (by simp)

theorem written_flush {outcome : Except IoKind Unit}
    (flushed : writer.flush = (outcome, after)) : after.written = writer.written := by
  unfold flush at flushed
  split at flushed <;> rw [← (Prod.mk.inj flushed).2] <;> rfl

end Writer

/-! ## Copies -/

variable {fuel : Nat} {reader : Reader} {writer after : Writer} {digest : Digest}
  {progress : Hash.Progress Hash.Md5.Words} {fingerprint : Fingerprint}

/-- A copy that succeeds ends with the reader, and has written and absorbed
what was left of its content. -/
theorem copyDigestWithin_ok
    (copied : copyDigestWithin fuel reader writer progress = (.ok digest, after)) :
    reader.content.2 = none ∧
      after.written = writer.written ++ reader.content.1 ∧
      digest.val =
        Hash.Md5.scheme.finish (Hash.Md5.scheme.update progress reader.content.1) := by
  induction fuel generalizing reader writer progress with
  | zero => exact absurd copied (by simp [copyDigestWithin])
  | succ fuel inductionHypothesis =>
    simp only [copyDigestWithin] at copied
    split at copied
    · rename_i rest interrupted
      rw [Reader.content_of_interrupted interrupted]
      exact inductionHypothesis copied
    · exact absurd copied (by simp)
    · rename_i rest ended
      rw [Reader.content_of_end (by decide) ended, List.append_nil]
      split at copied
      · rename_i flushed succeeded
        obtain ⟨sameDigest, rfl⟩ := Prod.mk.inj copied
        rw [← Except.ok.inj sameDigest]
        exact ⟨rfl, Writer.written_flush succeeded, rfl⟩
      · exact absurd copied (by simp)
    · rename_i octets rest some_octets given
      split at copied
      · rename_i filled written
        obtain ⟨ended, reached, hashed⟩ := inductionHypothesis copied
        rw [Reader.content_of_read given some_octets]
        refine ⟨ended, ?_, ?_⟩
        · rw [reached, Writer.written_writeAllWithin written, List.append_assoc]
        · rw [hashed, Hash.Scheme.update_append]
      · exact absurd copied (by simp)

/-- A copy that succeeds has written the whole content of the reader, and gives
its fingerprint. -/
theorem copyDigest_ok (copied : copyDigest reader writer = (.ok fingerprint, after)) :
    reader.content.2 = none ∧
      after.written = writer.written ++ reader.content.1 ∧
      fingerprint = Fingerprint.ofContent reader.content.1 := by
  unfold copyDigest at copied
  rcases within : copyDigestWithin (reader.weight + 1) reader writer Hash.Md5.scheme.start with
    ⟨outcome, reached⟩
  rw [within] at copied
  obtain ⟨outcomeEq, rfl⟩ := Prod.mk.inj copied
  cases outcome with
  | error kind => exact absurd outcomeEq (by simp [Except.map])
  | ok digest =>
    obtain ⟨ended, written, hashed⟩ := copyDigestWithin_ok within
    refine ⟨ended, written, ?_⟩
    rw [← Except.ok.inj outcomeEq]
    exact congrArg Fingerprint.ofDigest (Subtype.ext hashed)

/-! ## Copies into a writer that takes all octets -/

/-- Whether a writer takes all octets at once, and can be flushed. -/
structure Writer.Willing (writer : Writer) : Prop where
  turns : writer.turns = []
  perWrite : writer.perWrite = none
  room : writer.room = none
  flushFailure : writer.flushFailure = none

theorem Writer.willing_unlimited : Writer.unlimited.Willing :=
  ⟨rfl, rfl, rfl, rfl⟩

private theorem Writer.Willing.writeAll (willing : writer.Willing) (octets : Bytes) :
    ∃ filled, writer.writeAll octets = (.ok (), filled) ∧ filled.Willing := by
  obtain ⟨turns, perWrite, room, flushFailure⟩ := willing
  cases octets with
  | nil =>
    refine ⟨writer, ?_, ⟨turns, perWrite, room, flushFailure⟩⟩
    simp [Writer.writeAll, Writer.writeAllWithin]
  | cons octet others =>
    have written : writer.write (octet :: others) = (.ok (others.length + 1),
        { writer with reached := (octet :: others).reverse ++ writer.reached }) := by
      simp [Writer.write, Writer.take, turns, perWrite, room, Writer.tighter, Writer.allowed]
    refine ⟨{ writer with reached := (octet :: others).reverse ++ writer.reached }, ?_,
      ⟨turns, perWrite, room, flushFailure⟩⟩
    have rest : (octet :: others).drop (others.length + 1) = [] := List.drop_length
    have fuel : (octet :: others).length + writer.turns.length = others.length + 1 := by
      rw [turns]
      rfl
    unfold Writer.writeAll
    rw [fuel]
    simp only [Writer.writeAllWithin, written, rest]

/-- With enough reads, a copy into a willing writer ends as its reader does. -/
theorem copyDigestWithin_willing (willing : writer.Willing) (enough : reader.weight < fuel) :
    (copyDigestWithin fuel reader writer progress).1.map (fun _ => ()) =
      match reader.content.2 with
      | none => .ok ()
      | some kind => .error kind := by
  induction fuel generalizing reader writer progress with
  | zero => exact absurd enough (Nat.not_lt_zero _)
  | succ fuel inductionHypothesis =>
    simp only [copyDigestWithin]
    split
    · rename_i rest interrupted
      have lighter := Reader.weight_read_lt_of_error interrupted
      rw [Reader.content_of_interrupted interrupted]
      exact inductionHypothesis willing (by omega)
    · rename_i kind rest lasting failed
      rw [Reader.content_of_failure failed lasting]
      rfl
    · rename_i rest ended
      rw [Reader.content_of_end (by decide) ended]
      simp only [Writer.flush, willing.flushFailure]
      rfl
    · rename_i octets rest some_octets given
      have lighter := Reader.weight_read_lt (by decide) given some_octets
      obtain ⟨filled, written, willingStill⟩ := willing.writeAll octets
      rw [Reader.content_of_read given some_octets, written]
      exact inductionHypothesis willingStill (by omega)

/-- A copy into a willing writer gives the fingerprint of the content, unless the
reader fails. -/
theorem copyDigest_willing (willing : writer.Willing) (reader : Reader) :
    (copyDigest reader writer).1 =
      match reader.content with
      | (content, none) => .ok (Fingerprint.ofContent content)
      | (_, some kind) => .error kind := by
  have ending : (copyDigestWithin (reader.weight + 1) reader writer Hash.Md5.scheme.start).1.map
      (fun _ => ()) = _ := copyDigestWithin_willing willing (Nat.lt_succ_self _)
  rcases copied : copyDigest reader writer with ⟨outcome, after⟩
  rcases within : copyDigestWithin (reader.weight + 1) reader writer Hash.Md5.scheme.start with
    ⟨digest, reached⟩
  have same : digest.map Fingerprint.ofDigest = outcome := by
    unfold copyDigest at copied
    rw [within] at copied
    exact (Prod.mk.inj copied).1
  rw [within] at ending
  rcases content : reader.content with ⟨octets, failure⟩
  rw [content] at ending
  cases failure with
  | some kind =>
    cases digest with
    | ok digest => exact absurd ending (by simp [Except.map])
    | error cause =>
      rw [← same]
      exact congrArg Except.error (Except.error.inj ending)
  | none =>
    cases outcome with
    | ok fingerprint =>
      obtain ⟨_, _, hashed⟩ := copyDigest_ok copied
      rw [hashed, content]
    | error kind =>
      cases digest with
      | ok digest => exact absurd same (by simp [Except.map])
      | error cause => exact absurd ending (by simp [Except.map])

end ContentStore
