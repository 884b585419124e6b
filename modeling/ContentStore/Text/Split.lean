/-!
Contract: taking texts apart.

Owns:
- `cut`, what stands before and after the first occurrence of a mark;
- `fields`, the parts of a text between separators.
-/

namespace ContentStore.Text

/-- What precedes the first occurrence of a mark, and what follows it. -/
def cut (mark : List Char) : List Char → Option (List Char × List Char)
  | [] => none
  | symbol :: rest =>
    if mark.isPrefixOf (symbol :: rest) then some ([], (symbol :: rest).drop mark.length)
    else (cut mark rest).map fun (before, after) => (symbol :: before, after)

/-- What follows a mark is no longer than the whole. -/
theorem length_cut_le {mark symbols before after : List Char}
    (found : cut mark symbols = some (before, after)) : after.length ≤ symbols.length := by
  induction symbols generalizing before with
  | nil => simp [cut] at found
  | cons symbol rest inductionHypothesis =>
    simp only [cut] at found
    split at found
    · simp only [Option.some.injEq, Prod.mk.injEq] at found
      obtain ⟨_, rfl⟩ := found
      simp only [List.length_drop]
      omega
    · simp only [Option.map_eq_some_iff, Prod.mk.injEq] at found
      obtain ⟨⟨_, _⟩, inner, _, rfl⟩ := found
      have shorter := inductionHypothesis inner
      exact Nat.le_succ_of_le shorter

/-- The parts of a text between separators, one more than there are
separators. -/
def fields (isSeparator : Char → Bool) : List Char → List (List Char)
  | [] => [[]]
  | symbol :: rest =>
    if isSeparator symbol then [] :: fields isSeparator rest
    else
      match fields isSeparator rest with
      | field :: later => (symbol :: field) :: later
      | [] => [[symbol]]

end ContentStore.Text
