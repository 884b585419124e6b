import ContentStore.Proofs.Markup.Tree

/-!
Contract: runs of text, and what can be said of them without their references.

Owns:
- `cutsReference`, whether a text is cut within a reference, and that the parts of a
  legible text are legible if it is cut elsewhere;
- `textOf_eq_none_iff`, by which a run of blanks is no text;
- `allSound_textOf`, by which a run can be read if each of its segments can.

Does not own: which references stand for characters.
-/

namespace ContentStore.Markup

variable {pending : Option (List Char)} {front back gap raw : List Char} {symbol : Char}
  {run segments : List Segment} {segment : Segment} {node : Node}

/-! ## References -/

/-- What is open after one more character of a text; nothing if the text cannot be legible. -/
def pendingAfter (symbol : Char) : Option (List Char) → Option (Option (List Char))
  | none => some (if symbol = '&' then some [] else none)
  | some name =>
    if symbol = '&' then none
    else if symbol = ';' then (referent name.reverse).map fun _ => none
    else some (some (symbol :: name))

private theorem isSome_resolveFrom_cons : (resolveFrom pending (symbol :: raw)).isSome = true ↔
    ∃ next, pendingAfter symbol pending = some next ∧ (resolveFrom next raw).isSome = true := by
  cases pending with
  | none =>
    rw [resolveFrom, pendingAfter]
    by_cases opens : symbol = '&' <;> simp [opens]
  | some name =>
    rw [resolveFrom, pendingAfter]
    by_cases opens : symbol = '&'
    · simp [opens]
    · by_cases closes : symbol = ';'
      · cases referent name.reverse with
        | none => simp [closes]
        | some meant => cases later : resolveFrom none raw <;> simp [closes, later]
      · simp [opens, closes]

/-- Whether a reference is open at the end of a text, if one is `inside` at its start. -/
def endsInside (inside : Bool) : List Char → Bool
  | [] => inside
  | symbol :: rest => endsInside (symbol == '&' || (inside && symbol != ';')) rest

private theorem isSome_of_pendingAfter {next : Option (List Char)}
    (follows : pendingAfter symbol pending = some next) :
    next.isSome = (symbol == '&' || (pending.isSome && symbol != ';')) := by
  cases pending with
  | none =>
    obtain rfl := Option.some.inj follows
    by_cases opens : symbol = '&' <;> simp [opens]
  | some name =>
    rw [pendingAfter] at follows
    by_cases opens : symbol = '&'
    · simp [opens] at follows
    · by_cases closes : symbol = ';'
      · simp only [if_neg opens, if_pos closes, Option.map_eq_some_iff] at follows
        obtain ⟨meant, _, rfl⟩ := follows
        simp [closes]
      · simp only [if_neg opens, if_neg closes, Option.some.injEq] at follows
        simp [← follows, closes]

/-- A legible text leaves no reference open. -/
theorem endsInside_of_isSome (legible : (resolveFrom pending raw).isSome = true) :
    endsInside pending.isSome raw = false := by
  induction raw generalizing pending with
  | nil => cases pending with
    | none => rfl
    | some name => exact absurd legible Bool.false_ne_true
  | cons symbol raw inductionHypothesis =>
    obtain ⟨next, follows, legibleLater⟩ := isSome_resolveFrom_cons.mp legible
    rw [endsInside, ← isSome_of_pendingAfter follows]
    exact inductionHypothesis legibleLater

/-- A text that is cut outside its references is legible if both parts are. -/
theorem isSome_resolveFrom_append (outside : endsInside pending.isSome front = false) :
    (resolveFrom pending (front ++ back)).isSome = true ↔
      (resolveFrom pending front).isSome = true ∧ (resolve back).isSome = true := by
  induction front generalizing pending with
  | nil =>
    obtain rfl : pending = none := by simpa [endsInside] using outside
    exact (and_iff_right rfl).symm
  | cons symbol front inductionHypothesis =>
    rw [List.cons_append, isSome_resolveFrom_cons, isSome_resolveFrom_cons]
    constructor
    · rintro ⟨next, follows, legible⟩
      rw [endsInside, ← isSome_of_pendingAfter follows] at outside
      obtain ⟨legibleFront, legibleBack⟩ := (inductionHypothesis outside).mp legible
      exact ⟨⟨next, follows, legibleFront⟩, legibleBack⟩
    · rintro ⟨⟨next, follows, legibleFront⟩, legibleBack⟩
      rw [endsInside, ← isSome_of_pendingAfter follows] at outside
      exact ⟨next, follows, (inductionHypothesis outside).mpr ⟨legibleFront, legibleBack⟩⟩

theorem isSome_resolve_append (outside : endsInside false front = false) :
    (resolve (front ++ back)).isSome = true ↔
      (resolve front).isSome = true ∧ (resolve back).isSome = true := by
  have outsideNone : endsInside (none : Option (List Char)).isSome front = false := outside
  exact isSome_resolveFrom_append outsideNone

/-- Some reference may be open where a legible text is cut, and what follows closes it. -/
theorem exists_pending (legible : (resolveFrom pending (front ++ back)).isSome = true) :
    ∃ last, last.isSome = endsInside pending.isSome front ∧
      (resolveFrom last back).isSome = true := by
  induction front generalizing pending with
  | nil => exact ⟨pending, rfl, legible⟩
  | cons symbol front inductionHypothesis =>
    obtain ⟨next, follows, legibleLater⟩ := isSome_resolveFrom_cons.mp legible
    rw [endsInside, ← isSome_of_pendingAfter follows]
    exact inductionHypothesis legibleLater

/-- What can end a reference, well or badly. -/
def endsReference (symbol : Char) : Bool :=
  symbol == '&' || symbol == ';' || symbol == '<'

/-- A reference is cut in two where it is open in front, and is closed behind before anything
else. -/
def cutsReference (front back : List Char) : Bool :=
  endsInside false front && back.find? endsReference == some ';'

private theorem find?_of_isSome {name : List Char}
    (legible : (resolveFrom (some name) raw).isSome = true)
    (free : '<' ∉ raw) : raw.find? endsReference = some ';' := by
  induction raw generalizing name with
  | nil => exact absurd legible Bool.false_ne_true
  | cons symbol raw inductionHypothesis =>
    rw [List.mem_cons, not_or] at free
    obtain ⟨next, follows, legibleLater⟩ := isSome_resolveFrom_cons.mp legible
    rw [pendingAfter] at follows
    by_cases opens : symbol = '&'
    · simp [opens] at follows
    · by_cases closes : symbol = ';'
      · rw [closes]
        rfl
      · simp only [if_neg opens, if_neg closes, Option.some.injEq] at follows
        have passed : endsReference symbol = false := by
          simp [endsReference, opens, closes, Ne.symm free.1]
        rw [← follows] at legibleLater
        rw [List.find?_cons_of_neg (by simp [passed])]
        exact inductionHypothesis legibleLater free.2

/-- A legible text that is not cut within a reference is cut where no reference is open. -/
theorem endsInside_of_cutsReference {rest : List Char} (free : '<' ∉ back)
    (uncut : cutsReference front (back ++ rest) = false)
    (legible : (resolve (front ++ back)).isSome = true) : endsInside false front = false := by
  obtain ⟨last, isOpen, legibleBack⟩ := exists_pending legible
  cases last with
  | none => exact isOpen.symm
  | some name =>
    have closes := find?_of_isSome legibleBack free
    have isOpenThere : endsInside false front = true := isOpen.symm
    rw [cutsReference, isOpenThere, List.find?_append, closes] at uncut
    exact absurd uncut (by simp)

private theorem endsInside_append (inside : Bool) (front back : List Char) :
    endsInside inside (front ++ back) = endsInside (endsInside inside front) back := by
  induction front generalizing inside with
  | nil => rfl
  | cons symbol front inductionHypothesis => exact inductionHypothesis _

private theorem endsInside_gap (isGap : IsGap gap) (inside : Bool) :
    endsInside inside gap = inside := by
  induction gap with
  | nil => rfl
  | cons symbol gap inductionHypothesis =>
    have unchanged : (symbol == '&' || (inside && symbol != ';')) = inside := by
      rcases eq_of_isBlank (isGap symbol List.mem_cons_self) with rfl | rfl | rfl | rfl <;>
        simp
    rw [endsInside, unchanged]
    exact inductionHypothesis fun other member => isGap other (List.mem_cons_of_mem _ member)

private theorem isSome_resolve_gap (isGap : IsGap gap) : (resolve gap).isSome = true := by
  unfold resolve
  induction gap with
  | nil => rfl
  | cons symbol gap inductionHypothesis =>
    refine isSome_resolveFrom_cons.mpr ⟨none, ?_, inductionHypothesis
      fun other member => isGap other (List.mem_cons_of_mem _ member)⟩
    rcases eq_of_isBlank (isGap symbol List.mem_cons_self) with rfl | rfl | rfl | rfl <;> rfl

private theorem exists_gap_trimStart (raw : List Char) :
    ∃ gap, IsGap gap ∧ raw = gap ++ Text.trimStart isBlank raw :=
  ⟨raw.takeWhile isBlank, fun _ member => List.mem_takeWhile_imp member,
    List.takeWhile_append_dropWhile.symm⟩

private theorem exists_gap_trimEnd (raw : List Char) :
    ∃ gap, IsGap gap ∧ raw = Text.trimEnd isBlank raw ++ gap := by
  obtain ⟨gap, isGap, split⟩ := exists_gap_trimStart raw.reverse
  refine ⟨gap.reverse, fun symbol member => isGap symbol (List.mem_reverse.mp member), ?_⟩
  have reversed := congrArg List.reverse split
  rw [List.reverse_reverse, List.reverse_append] at reversed
  exact reversed

/-- Blanks before a text do not change whether it is legible. -/
theorem isSome_resolve_trimStart : (resolve (Text.trimStart isBlank raw)).isSome = true ↔
    (resolve raw).isSome = true := by
  obtain ⟨gap, isGap, split⟩ := exists_gap_trimStart raw
  conv_rhs => rw [split, isSome_resolve_append (endsInside_gap isGap false)]
  exact (and_iff_right (isSome_resolve_gap isGap)).symm

/-- Blanks behind a text do not change whether it is legible, not even those within a
reference that is not closed. -/
theorem isSome_resolve_trimEnd : (resolve (Text.trimEnd isBlank raw)).isSome = true ↔
    (resolve raw).isSome = true := by
  obtain ⟨gap, isGap, split⟩ := exists_gap_trimEnd raw
  have sameEnd : endsInside false raw = endsInside false (Text.trimEnd isBlank raw) := by
    conv_lhs => rw [split, endsInside_append, endsInside_gap isGap]
  cases outside : endsInside false (Text.trimEnd isBlank raw) with
  | false =>
    conv_rhs => rw [split, isSome_resolve_append outside]
    exact (and_iff_left (isSome_resolve_gap isGap)).symm
  | true =>
    rw [outside] at sameEnd
    apply iff_of_false
    · intro legible
      exact absurd ((endsInside_of_isSome legible).symm.trans outside) Bool.false_ne_true
    · intro legible
      exact absurd ((endsInside_of_isSome legible).symm.trans sameEnd) Bool.false_ne_true

theorem isGap_append : IsGap (front ++ back) ↔ IsGap front ∧ IsGap back :=
  List.forall_mem_append

private theorem trimStart_eq_nil_iff : Text.trimStart isBlank raw = [] ↔ IsGap raw :=
  List.dropWhile_eq_nil_iff

/-! ## Segments and runs -/

/-- Every reference in a segment stands for a character. -/
def Segment.IsLegible (segment : Segment) : Prop :=
  segment.content?.isSome = true

private theorem isLegible_trimEnd : segment.trimEnd.IsLegible ↔ segment.IsLegible := by
  unfold Segment.IsLegible
  cases segment with
  | plain raw =>
    rw [Segment.trimEnd, Segment.content?, Segment.content?]
    exact isSome_resolve_trimEnd
  | verbatim content => exact Iff.rfl

private theorem Segment.IsBlank.isLegible (blank : segment.IsBlank) : segment.IsLegible := by
  cases segment with
  | plain raw => exact isSome_resolve_gap blank
  | verbatim content => exact blank.elim

/-- Only blanks are dropped before a run. -/
theorem forall_trimRunStart :
    (∀ segment ∈ trimRunStart run, segment.IsLegible) ↔ ∀ segment ∈ run, segment.IsLegible := by
  induction run with
  | nil => exact Iff.rfl
  | cons segment run inductionHypothesis =>
    cases segment with
    | verbatim content => exact Iff.rfl
    | plain raw =>
      have sameFirst : (Segment.plain (Text.trimStart isBlank raw)).IsLegible ↔
          (Segment.plain raw).IsLegible := isSome_resolve_trimStart
      rw [trimRunStart]
      split
      · rename_i void
        have isGap : IsGap raw := trimStart_eq_nil_iff.mp (List.isEmpty_iff.mp void)
        have legible : (Segment.plain raw).IsLegible := Segment.IsBlank.isLegible isGap
        rw [inductionHypothesis, List.forall_mem_cons]
        exact (and_iff_right legible).symm
      · rw [List.forall_mem_cons, List.forall_mem_cons, sameFirst]

private theorem forall_trimRunEnd :
    (∀ segment ∈ trimRunEnd run, segment.IsLegible) ↔ ∀ segment ∈ run, segment.IsLegible := by
  unfold trimRunEnd
  cases ends : run.getLast? with
  | none => rw [List.getLast?_eq_none_iff.mp ends]
  | some last =>
    obtain ⟨earlier, rfl⟩ := List.getLast?_eq_some_iff.mp ends
    simp only [List.dropLast_concat, List.forall_mem_append, List.forall_mem_singleton,
      isLegible_trimEnd]

private theorem trimRunStart_eq_nil_iff :
    trimRunStart run = [] ↔ ∀ segment ∈ run, segment.IsBlank := by
  induction run with
  | nil => simp [trimRunStart]
  | cons segment run inductionHypothesis =>
    rw [List.forall_mem_cons]
    cases segment with
    | verbatim content => simp [trimRunStart, Segment.IsBlank]
    | plain raw =>
      rw [trimRunStart, Segment.IsBlank, ← trimStart_eq_nil_iff]
      split
      · rename_i void
        rw [inductionHypothesis]
        exact (and_iff_right (List.isEmpty_iff.mp void)).symm
      · rename_i visible
        have some_text : Text.trimStart isBlank raw ≠ [] :=
          fun void => visible (List.isEmpty_iff.mpr void)
        simp only [reduceCtorEq, some_text, false_and]

private theorem trimRunEnd_eq_nil_iff : trimRunEnd run = [] ↔ run = [] := by
  unfold trimRunEnd
  cases ends : run.getLast? with
  | none => simp [List.getLast?_eq_none_iff.mp ends]
  | some last =>
    obtain ⟨earlier, rfl⟩ := List.getLast?_eq_some_iff.mp ends
    simp

private theorem isSome_mapM_content : (segments.mapM Segment.content?).isSome = true ↔
    ∀ segment ∈ segments, segment.IsLegible := by
  induction segments with
  | nil => simp
  | cons segment segments inductionHypothesis =>
    rw [List.mapM_cons, List.forall_mem_cons, ← inductionHypothesis, Segment.IsLegible]
    cases segment.content? with
    | none => simp
    | some content => cases segments.mapM Segment.content? <;> simp

/-- A run is no text at all just if it holds nothing but blanks. -/
theorem textOf_eq_none_iff : textOf run = none ↔ ∀ segment ∈ run, segment.IsBlank := by
  rw [← trimRunStart_eq_nil_iff, ← trimRunEnd_eq_nil_iff]
  unfold textOf
  split
  · rename_i void
    exact iff_of_true rfl void
  · rename_i visible
    exact iff_of_false (Option.some_ne_none _) visible

theorem exists_of_mem_textOf (isText : node ∈ textOf run) : ∃ content, node = .text content := by
  unfold textOf at isText
  split at isText
  · exact absurd isText (Option.not_mem_none _)
  · exact ⟨_, (Option.some.inj isText).symm⟩

/-- The text of a run can be read if every segment of it can. -/
theorem allSound_textOf :
    Node.allSound (textOf run).toList = true ↔ ∀ segment ∈ run, segment.IsLegible := by
  rw [← forall_trimRunStart, ← forall_trimRunEnd, ← isSome_mapM_content]
  unfold textOf
  split
  · rename_i void
    rw [void]
    exact iff_of_true rfl rfl
  · rw [Option.toList_some, Node.allSound, Node.allSound, Node.isSound, Bool.and_true,
      Option.isSome_map]

end ContentStore.Markup
