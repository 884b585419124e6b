import ContentStore.Http.Reply
import ContentStore.Proofs.Text.Blank
import ContentStore.Proofs.Text.Decimal
import ContentStore.Proofs.Text.Split
import ContentStore.Proofs.Text.Symbols

/-!
Contract: bodies of responses, as they are sent and received.

Owns:
- `Chunked.Writes`, a body in chunks, and that it is read to its end;
- `Response.Carries`, by which a response carries a body in one of the three ways
  there are;
- `Response.Arrives`, and that a response that does is received with its whole
  body.

Does not own: what a status means.
-/

namespace ContentStore.Http

/-! ## Chunks -/

namespace Chunked

/-- Hexadecimal digits, in octets, that stand for a size. -/
structure SpellsSize (digits : Bytes) (size : Nat) : Prop where
  some_digit : digits ≠ []
  all_digits : ∀ octet ∈ digits, (digit? octet).isSome = true
  value_eq : (digits.filterMap digit?).foldl (fun total value => total * 16 + value) 0 = size
  small : size < sizeLimit

/-- A body in chunks of any sizes, and the last one that is empty. -/
inductive Writes : Bytes → Bytes → Prop where
  | last {digits : Bytes} (size : SpellsSize digits 0) :
    Writes [] (digits ++ 0x0d :: 0x0a :: [0x0d, 0x0a])
  | chunk {digits piece body octets : Bytes} (size : SpellsSize digits piece.length)
    (some_octet : piece ≠ []) (later : Writes body octets) :
    Writes (piece ++ body) (digits ++ 0x0d :: 0x0a :: (piece ++ 0x0d :: 0x0a :: octets))

variable {digits body octets : Bytes} {size : Nat}

private theorem sizeLine?_eq (spells : SpellsSize digits size) (rest : Bytes) :
    sizeLine? (digits ++ 0x0d :: 0x0a :: rest) = some (size, rest) := by
  have noDigit : ¬ (digit? 0x0d).isSome = true := by decide
  have noBlank : ¬ isBlank 0x0d = true := by decide
  have front : (digits ++ 0x0d :: 0x0a :: rest).takeWhile (fun octet => (digit? octet).isSome) =
      digits := by
    rw [List.takeWhile_append_of_pos spells.all_digits,
      List.takeWhile_cons_of_neg (by simpa using noDigit), List.append_nil]
  have back : (digits ++ 0x0d :: 0x0a :: rest).dropWhile (fun octet => (digit? octet).isSome) =
      0x0d :: 0x0a :: rest := by
    rw [List.dropWhile_append_of_pos spells.all_digits,
      List.dropWhile_cons_of_neg (by simpa using noDigit)]
  have fits : ¬ (digits.isEmpty = true ∨ sizeLimit ≤ size) := by
    rintro (void | large)
    · exact spells.some_digit (List.isEmpty_iff.mp void)
    · exact absurd spells.small (Nat.not_lt.mpr large)
  have whole : dropExtension (0x0d :: 0x0a :: rest) = 0x0d :: 0x0a :: rest := by
    unfold dropExtension
    split
    · rename_i same
      exact absurd (List.cons.inj same).1 (by decide)
    · rfl
  unfold sizeLine?
  simp only [front, back, List.dropWhile_cons_of_neg noBlank, whole, spells.value_eq]
  rw [if_neg fits]

private theorem read_of_last {rest : Bytes} (found : sizeLine? octets = some (0, rest)) :
    read octets = ([], endsWell [] rest) := by
  rw [read]
  split
  · simp_all
  · simp_all
  · simp_all

private theorem read_of_chunk {rest later : Bytes}
    (found : sizeLine? octets = some (size + 1, rest))
    (line : rest.drop (size + 1) = 0x0d :: 0x0a :: later) :
    read octets = (rest.take (size + 1) ++ (read later).1, (read later).2) := by
  rw [read]
  split
  · simp_all
  · simp_all
  · rename_i other after same
    rw [found] at same
    obtain ⟨sameSize, rfl⟩ := Prod.mk.inj (Option.some.inj same)
    obtain rfl := Nat.succ.inj sameSize
    split
    · rename_i following isLine
      rw [line] at isLine
      obtain rfl := (List.cons.inj (List.cons.inj isLine).2).2
      rfl
    · rename_i notLine
      exact (notLine later line).elim

/-- A body that is written in chunks is read to its end. -/
theorem read_eq (writes : Writes body octets) : read octets = (body, true) := by
  induction writes with
  | last size =>
    rw [read_of_last (sizeLine?_eq size _)]
    rfl
  | @chunk digits piece body octets size some_octet later inductionHypothesis =>
    obtain ⟨count, isCount⟩ : ∃ count, piece.length = count + 1 :=
      Nat.exists_eq_succ_of_ne_zero (Nat.ne_of_gt (List.length_pos_iff.mpr some_octet))
    rw [isCount] at size
    have line : (piece ++ 0x0d :: 0x0a :: octets).drop (count + 1) = 0x0d :: 0x0a :: octets := by
      rw [← isCount, List.drop_left]
    have front : (piece ++ 0x0d :: 0x0a :: octets).take (count + 1) = piece := by
      rw [← isCount, List.take_left]
    rw [read_of_chunk (sizeLine?_eq size _) line, front, inductionHypothesis]

end Chunked

/-! ## Responses with a body -/

namespace Response

/-- The values of a header, as they are received. -/
def told (response : Response) (name : String) : List String :=
  Header.values name (response.headers.map Header.received)

/-- How the octets after the headers carry a body. -/
inductive Carries (response : Response) (body : Bytes) : Prop where
  | untilEnd (unencoded : response.told "transfer-encoding" = [])
    (unsized : response.told "content-length" = []) (whole : response.content = body)
  | sized {length : String} (unencoded : response.told "transfer-encoding" = [])
    (isSized : response.told "content-length" = [length])
    (spells : Text.Decimal.Spells length.toList body.length)
    (small : body.length < Framing.lengthLimit) (whole : response.content = body)
  | chunked (encoded : response.told "transfer-encoding" = ["chunked"])
    (writes : Chunked.Writes body response.content)

/-- Whether a response can be received, with a status and a body.  What answers
some requests, and what comes with some statuses, has no body. -/
structure Arrives (method : Method) (response : Response) (status : Nat) (body : Bytes) :
    Prop where
  status_eq : response.status = status
  final : isFinal status = true
  sound : ∀ header ∈ response.headers, header.isSound = true
  body : if Framing.isBodiless method status then body = [] else response.Carries body

variable {response : Response} {method : Method} {status : Nat} {body : Bytes}

private theorem not_blank_of_isDigit {symbol : Char} (digit : Text.Decimal.isDigit symbol = true) :
    Header.isBlank symbol = false ∧ (symbol == ',') = false := by
  have others : ∀ other ∈ [' ', '\t', ','], Text.Decimal.isDigit other = false := by decide
  have different : ∀ other ∈ [' ', '\t', ','], symbol ≠ other := by
    rintro other among rfl
    rw [others symbol among] at digit
    exact absurd digit (by decide)
  have space := different ' ' (by decide)
  have tab := different '\t' (by decide)
  have comma := different ',' (by decide)
  exact ⟨by simp [Header.isBlank, space, tab], beq_false_of_ne comma⟩

theorem trim_of_spells {length : Nat} {digits : List Char}
    (spells : Text.Decimal.Spells digits length) : Text.trim Header.isBlank digits = digits := by
  apply Text.trim_eq_self
  · intro symbol first
    exact (not_blank_of_isDigit (spells.all_digits symbol (List.mem_of_mem_head? first))).1
  · intro symbol last
    exact (not_blank_of_isDigit (spells.all_digits symbol (List.mem_of_getLast? last))).1

private theorem length?_eq {length : Nat} {digits : List Char}
    (spells : Text.Decimal.Spells digits length)
    (small : length < Framing.lengthLimit) : Framing.length? digits = some length := by
  have trimmed := trim_of_spells spells
  have fits : ¬ (digits.isEmpty = true ∨ ¬ digits.all Text.Decimal.isDigit = true ∨
      Framing.lengthLimit ≤ length) := by
    rintro (void | other | large)
    · exact spells.some_digit (List.isEmpty_iff.mp void)
    · exact other (List.all_eq_true.mpr spells.all_digits)
    · exact absurd small (Nat.not_lt.mpr large)
  unfold Framing.length?
  simp only [trimmed, spells.value_eq]
  rw [if_neg fits]

private theorem agreedLength?_eq {length : Nat} {value : String}
    (spells : Text.Decimal.Spells value.toList length) (small : length < Framing.lengthLimit) :
    Framing.agreedLength? [value] = some length := by
  have whole : Text.fields (· == ',') value.toList = [value.toList] := by
    apply Text.fields_of_none
    intro symbol member
    exact (not_blank_of_isDigit (spells.all_digits symbol member)).2
  unfold Framing.agreedLength?
  rw [List.flatMap_singleton, whole]
  simp [length?_eq spells small]

/-- The body that a response carries is found in its octets. -/
theorem Carries.framing (carries : response.Carries body) :
    ∃ framing, Framing.ofHeaders? (response.headers.map Header.received) = some framing ∧
      framing.body response.content = (body, true) := by
  cases carries with
  | untilEnd unencoded unsized whole =>
    refine ⟨.untilEnd, ?_, by rw [Framing.body, whole]⟩
    unfold Framing.ofHeaders?
    unfold told at unencoded unsized
    rw [unencoded, unsized]
  | @sized length unencoded isSized spells small whole =>
    refine ⟨.sized body.length, ?_, ?_⟩
    · unfold Framing.ofHeaders?
      unfold told at unencoded isSized
      rw [unencoded, isSized]
      simp only [agreedLength?_eq spells small, Option.map_some]
    · rw [Framing.body, whole, List.take_length, decide_eq_true (Nat.le_refl _)]
  | chunked encoded writes =>
    refine ⟨.chunked, ?_, by rw [Framing.body, Chunked.read_eq writes]⟩
    unfold Framing.ofHeaders?
    unfold told at encoded
    rw [encoded]
    have isChunked : Framing.endsChunked ["chunked"] = true := by decide
    simp only [isChunked, if_true]

/-- A response that arrives is received with its whole body. -/
theorem Arrives.reply?_eq (arrives : response.Arrives method status body) :
    response.reply? method =
      some ⟨status, response.headers.map Header.received, body, true⟩ := by
  have bodyArrives := arrives.body
  have usable : isFinal response.status = true ∧ response.headers.all Header.isSound = true :=
    ⟨arrives.status_eq ▸ arrives.final, List.all_eq_true.mpr arrives.sound⟩
  unfold reply?
  rw [if_pos usable, arrives.status_eq]
  split at bodyArrives
  · rename_i bodiless
    simp only [Framing.ofResponse?, bodiless, if_true, Option.map_some, Framing.body, bodyArrives]
  · rename_i bodied
    obtain ⟨framing, found, read⟩ := bodyArrives.framing
    simp only [Framing.ofResponse?, if_neg bodied, found, Option.map_some, read]

end Response

end ContentStore.Http
