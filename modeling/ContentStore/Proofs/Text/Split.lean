import ContentStore.Text.Split

/-!
Contract: texts that are taken apart.

Owns:
- the fields of a text without separators, and that there is always one;
- `cut_append_mark`, by which a text is cut where a mark was put behind it, and
  `append_mark_inj`, by which only one text is so cut;
- `cut_append`, by which it is cut there whatever follows.

Does not own: texts that are cut inside a mark.
-/

namespace ContentStore.Text

variable {front content rest symbols : List Char} {last symbol : Char}

/-! ## Fields -/

theorem fields_ne_nil (isSeparator : Char → Bool) (symbols : List Char) :
    fields isSeparator symbols ≠ [] := by
  cases symbols with
  | nil => simp [fields]
  | cons symbol rest =>
    unfold fields
    split
    · simp
    · split <;> simp

theorem fields_congr {first second : Char → Bool}
    (agree : ∀ symbol ∈ symbols, first symbol = second symbol) :
    fields first symbols = fields second symbols := by
  induction symbols with
  | nil => rfl
  | cons symbol rest inductionHypothesis =>
    unfold fields
    rw [agree symbol List.mem_cons_self,
      inductionHypothesis fun later member => agree later (List.mem_cons_of_mem _ member)]

theorem fields_of_none {isSeparator : Char → Bool}
    (none_separates : ∀ symbol ∈ symbols, isSeparator symbol = false) :
    fields isSeparator symbols = [symbols] := by
  induction symbols with
  | nil => rfl
  | cons symbol rest inductionHypothesis =>
    unfold fields
    rw [inductionHypothesis fun later member =>
        none_separates later (List.mem_cons_of_mem _ member),
      none_separates symbol List.mem_cons_self]
    rfl

/-! ## Marks -/

private theorem not_prefix_of_crossing (lone : last ∉ front) (some_content : content ≠ [])
    (crossing : content.length ≤ front.length) (rest : List Char) :
    ¬ front ++ [last] <+: content ++ (front ++ [last] ++ rest) := by
  rintro ⟨after, same⟩
  have lastRead : (content ++ (front ++ [last] ++ rest))[front.length]? = some last := by
    rw [← same]
    simp
  have positive : 0 < content.length := List.length_pos_iff.mpr some_content
  rw [List.getElem?_append_right crossing, List.append_assoc,
    List.getElem?_append_left (by omega)] at lastRead
  exact lone (List.mem_of_getElem? lastRead)

/-- A mark whose last character is none of the others ends a content that does
not hold it. -/
theorem cut_append_mark (lone : last ∉ front) (free : ¬ front ++ [last] <:+: content)
    (rest : List Char) :
    cut (front ++ [last]) (content ++ (front ++ [last] ++ rest)) = some (content, rest) := by
  induction content with
  | nil =>
    rw [List.nil_append]
    cases begun : front ++ [last] ++ rest with
    | nil => simp at begun
    | cons first more =>
      unfold cut
      rw [← begun, if_pos (List.isPrefixOf_iff_prefix.mpr (List.prefix_append _ _)),
        List.drop_left]
  | cons symbol content inductionHypothesis =>
    have freeLater : ¬ front ++ [last] <:+: content :=
      fun inside => free (List.infix_cons inside)
    have unmatched : ¬ (front ++ [last]).isPrefixOf
        (symbol :: (content ++ (front ++ [last] ++ rest))) = true := by
      intro matched
      have isFront := List.isPrefixOf_iff_prefix.mp matched
      rw [← List.cons_append] at isFront
      by_cases crossing : (symbol :: content).length ≤ front.length
      · exact not_prefix_of_crossing lone (List.cons_ne_nil _ _) crossing rest isFront
      · apply free
        apply List.IsPrefix.isInfix
        apply List.prefix_of_prefix_length_le isFront (List.prefix_append _ _)
        simp only [List.length_append, List.length_singleton]
        omega
    rw [List.cons_append]
    unfold cut
    rw [if_neg unmatched, inductionHypothesis freeLater]
    rfl

/-- A text is cut at a mark that is in it. -/
theorem eq_of_cut {mark before after : List Char}
    (found : cut mark symbols = some (before, after)) :
    symbols = before ++ (mark ++ after) := by
  induction symbols generalizing before with
  | nil => simp [cut] at found
  | cons symbol rest inductionHypothesis =>
    rw [cut] at found
    split at found
    · rename_i begins
      obtain ⟨tail, same⟩ := List.isPrefixOf_iff_prefix.mp begins
      rw [← same, List.drop_left] at found
      obtain ⟨rfl, rfl⟩ := Prod.mk.inj (Option.some.inj found)
      exact same.symm
    · obtain ⟨⟨front, tail⟩, inner, same⟩ := Option.map_eq_some_iff.mp found
      obtain ⟨rfl, rfl⟩ := Prod.mk.inj same
      rw [inductionHypothesis inner]
      rfl

/-- What follows a text does not change where it is cut. -/
theorem cut_append {mark before after : List Char} (found : cut mark symbols = some (before, after))
    (rest : List Char) : cut mark (symbols ++ rest) = some (before, after ++ rest) := by
  induction symbols generalizing before with
  | nil => simp [cut] at found
  | cons symbol symbols inductionHypothesis =>
    rw [cut] at found
    rw [List.cons_append, cut]
    split at found
    · rename_i begins
      obtain ⟨tail, same⟩ := List.isPrefixOf_iff_prefix.mp begins
      rw [← same, List.drop_left] at found
      obtain ⟨rfl, rfl⟩ := Prod.mk.inj (Option.some.inj found)
      rw [← List.cons_append, ← same, List.append_assoc,
        if_pos (List.isPrefixOf_iff_prefix.mpr (List.prefix_append _ _)), List.drop_left]
    · rename_i unmatched
      obtain ⟨⟨front, tail⟩, inner, same⟩ := Option.map_eq_some_iff.mp found
      obtain ⟨rfl, rfl⟩ := Prod.mk.inj same
      -- The mark is found further on, so that it is no longer than what is there.
      have short : mark.length ≤ (symbol :: symbols).length := by
        rw [eq_of_cut inner]
        simp only [List.length_cons, List.length_append]
        omega
      have unmatchedStill : ¬ mark.isPrefixOf (symbol :: (symbols ++ rest)) = true := by
        intro matched
        apply unmatched
        rw [List.isPrefixOf_iff_prefix] at matched ⊢
        exact List.prefix_of_prefix_length_le matched (List.prefix_append _ rest) short
      rw [if_neg unmatchedStill, inductionHypothesis inner]
      rfl

theorem cut_quote (free : symbol ∉ content) (rest : List Char) :
    cut [symbol] (content ++ symbol :: rest) = some (content, rest) :=
  cut_append_mark (List.not_mem_nil : symbol ∉ [])
    (fun inside => free (inside.subset List.mem_cons_self)) rest

/-- What stands in front of the first mark of a text, and what behind it, is determined. -/
theorem append_mark_inj {other tail : List Char} (free : symbol ∉ content)
    (otherFree : symbol ∉ other) :
    content ++ symbol :: rest = other ++ symbol :: tail ↔ content = other ∧ rest = tail := by
  constructor
  · intro same
    have cuts := cut_quote free rest
    rw [same, cut_quote otherFree tail] at cuts
    obtain ⟨sameContent, sameRest⟩ := Prod.mk.inj (Option.some.inj cuts)
    exact ⟨sameContent.symm, sameRest.symm⟩
  · rintro ⟨rfl, rfl⟩
    rfl

end ContentStore.Text
