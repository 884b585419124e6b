import ContentStore.Proofs.Url.Percent
import ContentStore.Proofs.Text.Split
import ContentStore.Url.Basic

/-!
Contract: what the path of an address stands for.

Owns:
- `joined`, segments behind one slash each, and that a path is cut into segments
  and joined again;
- what segments of one or two points stand for, in any spelling;
- that resolving such segments leaves less than there was;
- that a path stands for what was written, slash for slash, if there are no such
  segments, and otherwise for fewer octets.

Does not own: where the path of an address begins and ends.
-/

namespace ContentStore.Url

variable {segment : List Char} {segments kept : List (List Char)} {symbols : List Char}

/-! ## Segments -/

/-- Segments, each behind a slash. -/
def joined (segments : List (List Char)) : List Char :=
  segments.flatMap ('/' :: ·)

theorem joined_cons (segment : List Char) (rest : List (List Char)) :
    joined (segment :: rest) = '/' :: segment ++ joined rest :=
  List.flatMap_cons

private theorem cons_intercalate (some_segments : segments ≠ []) :
    '/' :: ['/'].intercalate segments = joined segments := by
  induction segments with
  | nil => exact absurd rfl some_segments
  | cons segment rest inductionHypothesis =>
    cases rest with
    | nil => simp [joined]
    | cons next others =>
      have later := inductionHypothesis (by simp)
      rw [joined_cons, ← later]
      simp [List.intercalate]

/-- What the separators of a path are read as. -/
def straightened (symbols : List Char) : List Char :=
  symbols.map fun symbol => if isSlash symbol then '/' else symbol

theorem joined_fields (symbols : List Char) :
    joined (Text.fields isSlash symbols) = '/' :: straightened symbols := by
  induction symbols with
  | nil => rfl
  | cons symbol rest inductionHypothesis =>
    unfold Text.fields
    by_cases slash : isSlash symbol = true
    · rw [if_pos slash, joined_cons, inductionHypothesis]
      simp [straightened, slash]
    · rw [if_neg slash]
      cases cut : Text.fields isSlash rest with
      | nil =>
        rw [cut] at inductionHypothesis
        exact absurd inductionHypothesis (by simp [joined])
      | cons field later =>
        rw [cut, joined_cons, List.cons_append] at inductionHypothesis
        rw [joined_cons]
        simp only [List.cons_append]
        rw [List.cons.inj inductionHypothesis |>.2]
        simp [straightened, slash]

private theorem length_straightened (symbols : List Char) :
    (Text.Utf8.encodeSymbols (straightened symbols)).length =
      (Text.Utf8.encodeSymbols symbols).length := by
  induction symbols with
  | nil => rfl
  | cons symbol rest inductionHypothesis =>
    have same : (String.utf8EncodeChar (if isSlash symbol then '/' else symbol)).length =
        (String.utf8EncodeChar symbol).length := by
      split
      · rename_i slash
        have either : symbol = '/' ∨ symbol = '\\' := by
          simpa [isSlash] using slash
        rcases either with rfl | rfl <;> rfl
      · rfl
    show (Text.Utf8.encodeSymbols ((if isSlash symbol then '/' else symbol) ::
      straightened rest)).length = _
    rw [Text.Utf8.encodeSymbols_cons, Text.Utf8.encodeSymbols_cons, List.length_append,
      List.length_append, inductionHypothesis, same]

theorem percentDecode_joined_cons (segment : List Char) (rest : List (List Char)) :
    percentDecode (joined (segment :: rest)) =
      0x2f :: percentDecode segment ++ percentDecode (joined rest) := by
  have slash (symbols : List Char) :
      percentDecode ('/' :: symbols) = 0x2f :: percentDecode symbols :=
    percentDecode_append_slash [] symbols
  rw [joined_cons, List.cons_append, slash]
  cases rest with
  | nil => simp [joined, percentDecode]
  | cons next others =>
    rw [joined_cons, List.cons_append, percentDecode_append_slash, slash, List.cons_append]

/-- The octets that segments stand for, with one slash each. -/
def extent (segments : List (List Char)) : Nat :=
  (percentDecode (joined segments)).length

private theorem extent_cons (segment : List Char) (rest : List (List Char)) :
    extent (segment :: rest) = 1 + (percentDecode segment).length + extent rest := by
  unfold extent
  rw [percentDecode_joined_cons, List.length_append, List.length_cons]
  omega

private theorem extent_nil : extent [] = 0 :=
  rfl

private theorem extent_append (front back : List (List Char)) :
    extent (front ++ back) = extent front + extent back := by
  induction front with
  | nil => rw [List.nil_append, extent_nil, Nat.zero_add]
  | cons segment rest inductionHypothesis =>
    rw [List.cons_append, extent_cons, extent_cons, inductionHypothesis]
    omega

private theorem extent_reverse (segments : List (List Char)) :
    extent segments.reverse = extent segments := by
  induction segments with
  | nil => rfl
  | cons segment rest inductionHypothesis =>
    rw [List.reverse_cons, extent_append, inductionHypothesis, extent_cons, extent_cons, extent_nil]
    omega

private theorem percentDecode_joined_map_percentEncode (segments : List (List Char)) :
    percentDecode (joined (segments.map (percentEncode isEscapedInPath))) =
      percentDecode (joined segments) := by
  induction segments with
  | nil => rfl
  | cons segment rest inductionHypothesis =>
    rw [List.map_cons, percentDecode_joined_cons, percentDecode_joined_cons, inductionHypothesis,
      percentDecode_percentEncode]

/-! ## Segments of points -/

/-- A character whose small form is no letter is that form itself. -/
theorem eq_of_toLower {symbol small : Char} (lower : symbol.toLower = small)
    (notLetter : ¬ ('a' ≤ small ∧ small ≤ 'z')) : symbol = small := by
  unfold Char.toLower at lower
  split at lower
  · rename_i upper
    exfalso
    apply notLetter
    rw [← lower]
    have low : 65 ≤ symbol.val.toNat := UInt32.le_iff_toNat_le.mp upper.1
    have high : symbol.val.toNat ≤ 90 := UInt32.le_iff_toNat_le.mp upper.2
    have moved : (symbol.val + ('a'.val - 'A'.val)).toNat = symbol.val.toNat + 32 := by
      rw [UInt32.toNat_add, show ('a'.val - 'A'.val).toNat = 32 from rfl]
      omega
    simp only [Char.le_def, UInt32.le_iff_toNat_le, moved]
    show 97 ≤ symbol.val.toNat + 32 ∧ symbol.val.toNat + 32 ≤ 122
    omega
  · exact lower

private theorem value?_of_toLower_e {symbol : Char} (lower : symbol.toLower = 'e') :
    Bytes.Hex.value? symbol = some 14 := by
  unfold Char.toLower at lower
  split at lower
  · have moved := congrArg Char.val lower
    have value : symbol.val = 69 := by
      simp only at moved
      have undone := congrArg (· - 32) moved
      simpa using undone
    have isE : symbol = 'E' := Char.ext value
    rw [isE]
    decide
  · rw [lower]
    decide

/-- A point stands for itself, -/
theorem percentDecode_point {point : Char} (isPoint : point.toLower = '.') (rest : List Char) :
    percentDecode (point :: rest) = 0x2e :: percentDecode rest := by
  obtain rfl := eq_of_toLower isPoint (by decide)
  rw [percentDecode_cons (by simp)]
  rfl

/-- and may be spelled by its octet. -/
theorem percentDecode_spelled_point {percent high low : Char} (isPercent : percent.toLower = '%')
    (isTwo : high.toLower = '2') (isE : low.toLower = 'e') (rest : List Char) :
    percentDecode (percent :: high :: low :: rest) = 0x2e :: percentDecode rest := by
  obtain rfl := eq_of_toLower isPercent (by decide)
  obtain rfl := eq_of_toLower isTwo (by decide)
  rw [percentDecode_spelled (show Bytes.Hex.value? '2' = some 2 by decide)
    (value?_of_toLower_e isE)]
  rfl

theorem percentDecode_of_isSingleDot (single : isSingleDot segment = true) :
    percentDecode segment = [0x2e] := by
  have spellings : ['.'] = segment.map Char.toLower ∨
      ['%', '2', 'e'] = segment.map Char.toLower := by
    simp only [isSingleDot, List.any_cons, List.any_nil, Bool.or_false, Bool.or_eq_true,
      beq_iff_eq] at single
    exact single
  rcases spellings with point | spelled
  · obtain ⟨first, rest, rfl, isPoint, others⟩ := List.map_eq_cons_iff.mp point.symm
    obtain rfl := List.map_eq_nil_iff.mp others
    rw [percentDecode_point isPoint, percentDecode]
  · obtain ⟨first, rest, rfl, isPercent, others⟩ := List.map_eq_cons_iff.mp spelled.symm
    obtain ⟨second, rest, rfl, isTwo, others⟩ := List.map_eq_cons_iff.mp others
    obtain ⟨third, rest, rfl, isE, others⟩ := List.map_eq_cons_iff.mp others
    obtain rfl := List.map_eq_nil_iff.mp others
    rw [percentDecode_spelled_point isPercent isTwo isE, percentDecode]

theorem percentDecode_of_isDoubleDot (double : isDoubleDot segment = true) :
    percentDecode segment = [0x2e, 0x2e] := by
  have spellings : ['.', '.'] = segment.map Char.toLower ∨
      ['%', '2', 'e', '.'] = segment.map Char.toLower ∨
      ['.', '%', '2', 'e'] = segment.map Char.toLower ∨
      ['%', '2', 'e', '%', '2', 'e'] = segment.map Char.toLower := by
    simp only [isDoubleDot, List.any_cons, List.any_nil, Bool.or_false, Bool.or_eq_true,
      beq_iff_eq] at double
    exact double
  have afterPoint {point : Char} {rest : List Char} (isPoint : point.toLower = '.')
      (single : isSingleDot rest = true) :
      percentDecode (point :: rest) = [0x2e, 0x2e] := by
    rw [percentDecode_point isPoint, percentDecode_of_isSingleDot single]
  have afterSpelled {percent high low : Char} {rest : List Char}
      (isPercent : percent.toLower = '%') (isTwo : high.toLower = '2') (isE : low.toLower = 'e')
      (single : isSingleDot rest = true) :
      percentDecode (percent :: high :: low :: rest) = [0x2e, 0x2e] := by
    rw [percentDecode_spelled_point isPercent isTwo isE, percentDecode_of_isSingleDot single]
  rcases spellings with points | spelledFirst | spelledLast | spelled
  · obtain ⟨first, rest, rfl, isPoint, others⟩ := List.map_eq_cons_iff.mp points.symm
    apply afterPoint isPoint
    rw [isSingleDot, others]
    rfl
  · obtain ⟨first, rest, rfl, isPercent, others⟩ := List.map_eq_cons_iff.mp spelledFirst.symm
    obtain ⟨second, rest, rfl, isTwo, others⟩ := List.map_eq_cons_iff.mp others
    obtain ⟨third, rest, rfl, isE, others⟩ := List.map_eq_cons_iff.mp others
    apply afterSpelled isPercent isTwo isE
    rw [isSingleDot, others]
    rfl
  · obtain ⟨first, rest, rfl, isPoint, others⟩ := List.map_eq_cons_iff.mp spelledLast.symm
    apply afterPoint isPoint
    rw [isSingleDot, others]
    rfl
  · obtain ⟨first, rest, rfl, isPercent, others⟩ := List.map_eq_cons_iff.mp spelled.symm
    obtain ⟨second, rest, rfl, isTwo, others⟩ := List.map_eq_cons_iff.mp others
    obtain ⟨third, rest, rfl, isE, others⟩ := List.map_eq_cons_iff.mp others
    apply afterSpelled isPercent isTwo isE
    rw [isSingleDot, others]
    rfl

/-! ## Resolving -/

/-- Whether a segment stands for one that is already there. -/
def isDots (segment : List Char) : Bool :=
  isDoubleDot segment || isSingleDot segment

private theorem one_le_of_isDots (dots : isDots segment = true) :
    1 ≤ (percentDecode segment).length := by
  rcases Bool.or_eq_true _ _ ▸ dots with double | single
  · rw [percentDecode_of_isDoubleDot double]
    exact Nat.le_succ 1
  · rw [percentDecode_of_isSingleDot single]
    exact Nat.le_refl 1

theorem resolveDots_of_none (kept : List (List Char))
    (none_dots : ∀ segment ∈ segments, isDots segment = false) :
    resolveDots kept segments = kept.reverse ++ segments := by
  induction segments generalizing kept with
  | nil => simp [resolveDots]
  | cons segment rest inductionHypothesis =>
    have notDots : (isDoubleDot segment || isSingleDot segment) = false :=
      none_dots segment List.mem_cons_self
    unfold resolveDots
    rw [notDots, if_neg (by simp), inductionHypothesis _ fun later member =>
      none_dots later (List.mem_cons_of_mem _ member)]
    simp

private theorem extent_drop_le (segments : List (List Char)) :
    extent (segments.drop 1) ≤ extent segments := by
  cases segments with
  | nil => exact Nat.le_refl _
  | cons segment rest =>
    rw [extent_cons, List.drop_one, List.tail_cons]
    omega

/-- What is kept when a segment of points has been resolved. -/
theorem exists_resolveDots_of_isDots (kept : List (List Char)) (dots : isDots segment = true)
    (rest : List (List Char)) :
    ∃ after, resolveDots kept (segment :: rest) = resolveDots after rest ∧
      (rest = [] → after ≠ []) ∧ extent after < extent kept + extent [segment] := by
  have larger := one_le_of_isDots dots
  have dropped := extent_drop_le kept
  have either : (isDoubleDot segment || isSingleDot segment) = true := dots
  have measured : extent [segment] = 1 + (percentDecode segment).length := by
    rw [extent_cons, extent_nil, Nat.add_zero]
  refine ⟨_, by rw [resolveDots, if_pos either], ?_, ?_⟩
  · rintro rfl
    simp
  · rw [measured]
    have withEmpty (others : List (List Char)) : extent ([] :: others) = 1 + extent others := by
      rw [extent_cons, percentDecode, List.length_nil]
    -- At the end an empty segment stays, which is one slash.
    cases rest.isEmpty <;> cases isDoubleDot segment <;>
      simp only [if_true, Bool.false_eq_true, if_false, withEmpty] <;> omega

/-- Resolving leaves no more than there was, -/
theorem extent_resolveDots_le (kept segments : List (List Char)) :
    extent (resolveDots kept segments) ≤ extent kept + extent segments := by
  induction segments generalizing kept with
  | nil =>
    rw [resolveDots, extent_reverse, extent_nil]
    exact Nat.le_refl _
  | cons segment rest inductionHypothesis =>
    cases dots : isDots segment with
    | true =>
      obtain ⟨after, resolved, _, less⟩ := exists_resolveDots_of_isDots kept dots rest
      have later := inductionHypothesis after
      rw [extent_cons, extent_nil] at less
      rw [resolved, extent_cons]
      omega
    | false =>
      have neither : (isDoubleDot segment || isSingleDot segment) = false := dots
      have later := inductionHypothesis (segment :: kept)
      rw [extent_cons] at later
      rw [resolveDots, neither, if_neg (by simp), extent_cons]
      omega

/-- and less if any segment was resolved. -/
theorem extent_resolveDots_lt (kept : List (List Char))
    (some_dots : ∃ segment ∈ segments, isDots segment = true) :
    extent (resolveDots kept segments) < extent kept + extent segments := by
  induction segments generalizing kept with
  | nil => exact absurd some_dots (by simp)
  | cons segment rest inductionHypothesis =>
    cases dots : isDots segment with
    | true =>
      obtain ⟨after, resolved, _, less⟩ := exists_resolveDots_of_isDots kept dots rest
      have later := extent_resolveDots_le after rest
      rw [extent_cons, extent_nil] at less
      rw [resolved, extent_cons]
      omega
    | false =>
      have neither : (isDoubleDot segment || isSingleDot segment) = false := dots
      have among : ∃ other ∈ rest, isDots other = true := by
        obtain ⟨other, member, otherDots⟩ := some_dots
        rcases List.mem_cons.mp member with rfl | later
        · rw [dots] at otherDots
          exact absurd otherDots (by simp)
        · exact ⟨other, later, otherDots⟩
      have later := inductionHypothesis (segment :: kept) among
      rw [extent_cons] at later
      rw [resolveDots, neither, if_neg (by simp), extent_cons]
      omega

private theorem resolveDots_ne_nil (kept : List (List Char))
    (some_segments : segments ≠ [] ∨ kept ≠ []) :
    resolveDots kept segments ≠ [] := by
  induction segments generalizing kept with
  | nil =>
    rw [resolveDots]
    simpa using some_segments
  | cons segment rest inductionHypothesis =>
    cases dots : isDots segment with
    | true =>
      obtain ⟨after, resolved, ending, _⟩ := exists_resolveDots_of_isDots kept dots rest
      rw [resolved]
      apply inductionHypothesis
      by_cases last : rest = []
      · exact Or.inr (ending last)
      · exact Or.inl last
    | false =>
      have neither : (isDoubleDot segment || isSingleDot segment) = false := dots
      rw [resolveDots, neither, if_neg (by simp)]
      exact inductionHypothesis _ (Or.inr (by simp))

/-! ## Paths -/

/-- The segments of a path as they are sent, before any are resolved. -/
def escapedFields (symbols : List Char) : List (List Char) :=
  (Text.fields isSlash symbols).map (percentEncode isEscapedInPath)

theorem pathOf_cons_slash (symbols : List Char) :
    pathOf ('/' :: symbols) = joined (resolveDots [] (escapedFields symbols)) := by
  unfold pathOf
  apply cons_intercalate
  apply resolveDots_ne_nil
  left
  simpa [escapedFields] using Text.fields_ne_nil isSlash symbols

private theorem percentDecode_joined_escapedFields (symbols : List Char) :
    percentDecode (joined (escapedFields symbols)) =
      0x2f :: percentDecode (straightened symbols) := by
  unfold escapedFields
  rw [percentDecode_joined_map_percentEncode, joined_fields]
  exact percentDecode_append_slash [] (straightened symbols)

/-- Without segments of points a path stands for what was written, slash for
slash. -/
theorem percentDecode_pathOf (none_dots : ∀ segment ∈ escapedFields symbols,
    isDots segment = false) :
    percentDecode (pathOf ('/' :: symbols)) = 0x2f :: percentDecode (straightened symbols) := by
  rw [pathOf_cons_slash, resolveDots_of_none [] none_dots, List.reverse_nil, List.nil_append,
    percentDecode_joined_escapedFields]

/-- A path stands for no more octets than were written. -/
theorem length_percentDecode_pathOf_le (symbols : List Char) :
    (percentDecode (pathOf ('/' :: symbols))).length ≤
      1 + (Text.Utf8.encodeSymbols symbols).length := by
  have resolved := extent_resolveDots_le [] (escapedFields symbols)
  have written := length_percentDecode_le (straightened symbols)
  rw [length_straightened] at written
  unfold extent at resolved
  rw [percentDecode_joined_escapedFields, List.length_cons] at resolved
  rw [pathOf_cons_slash]
  simp only [joined, List.flatMap_nil, percentDecode, List.length_nil] at resolved ⊢
  omega

/-- If it stands for just as many, no segments of points were written, and no
octets were spelled. -/
theorem of_length_percentDecode_pathOf
    (same : (percentDecode (pathOf ('/' :: symbols))).length =
      1 + (Text.Utf8.encodeSymbols symbols).length) :
    (∀ segment ∈ escapedFields symbols, isDots segment = false) ∧
      percentDecode (straightened symbols) =
        Text.Utf8.encodeSymbols (straightened symbols) := by
  have none_dots : ∀ segment ∈ escapedFields symbols, isDots segment = false := by
    intro segment member
    by_contra dots
    have resolved := extent_resolveDots_lt [] ⟨segment, member, Bool.not_eq_false _ ▸ dots⟩
    have written := length_percentDecode_le (straightened symbols)
    rw [length_straightened] at written
    unfold extent at resolved
    rw [percentDecode_joined_escapedFields, List.length_cons, ← pathOf_cons_slash] at resolved
    simp only [joined, List.flatMap_nil, percentDecode, List.length_nil] at resolved
    omega
  refine ⟨none_dots, ?_⟩
  apply percentDecode_eq_of_length
  rw [percentDecode_pathOf none_dots, List.length_cons] at same
  rw [length_straightened]
  omega

end ContentStore.Url
