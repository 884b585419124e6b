import ContentStore.Proofs.Text.Blank
import ContentStore.Proofs.Text.Utf8
import ContentStore.Text.Lines

/-!
Contract: the lines of a byte string, and what stands on them between blanks.

Owns:
- `lines_eq`, by which lines are what line feeds separate, but for a carriage
  return before a line feed and for nothing after the last line feed;
- `TrimsTo`, octets that are a text with blanks around another;
- that neither the carriage return nor the empty end matters to what lines are
  trimmed to.

Does not own: what the texts say.
-/

namespace ContentStore.Text

variable {octets line front : Bytes} {text : String}

/-! ## Lines -/

/-- Lines as they are read.  All but the last have been ended by a line feed. -/
def ended : List Bytes → List Bytes
  | [] => []
  | [last] => if last.isEmpty then [] else [last]
  | line :: rest => withoutReturn line :: ended rest

private theorem ended_cons (line : Bytes) {rest : List Bytes} (more : rest ≠ []) :
    ended (line :: rest) = withoutReturn line :: ended rest := by
  cases rest with
  | nil => exact absurd rfl more
  | cons next others => rfl

private theorem modifyHead_nil_append (pieces : List Bytes) :
    pieces.modifyHead (([] : Bytes) ++ ·) = pieces := by
  cases pieces <;> rfl

private theorem linesFrom_eq (current octets : Bytes) :
    linesFrom current octets =
      ended ((octets.splitOn 0x0a).modifyHead (current.reverse ++ ·)) := by
  induction octets generalizing current with
  | nil => simp [linesFrom, ended]
  | cons octet rest inductionHypothesis =>
    rw [linesFrom, List.splitOn_cons_eq_if_modifyHead]
    by_cases feed : octet = 0x0a
    · rw [if_pos feed, if_pos (beq_iff_eq.mpr feed), inductionHypothesis, List.reverse_nil,
        modifyHead_nil_append, List.modifyHead_cons, List.append_nil,
        ended_cons _ (List.splitOn_ne_nil _ _)]
    · rw [if_neg feed, if_neg (by simpa using feed), inductionHypothesis]
      cases rest.splitOn 0x0a with
      | nil => rfl
      | cons line others => simp

theorem lines_eq (octets : Bytes) : lines octets = ended (octets.splitOn 0x0a) := by
  rw [lines, linesFrom_eq, List.reverse_nil, modifyHead_nil_append]

/-- What holds of nothing, and of a line with a carriage return if it does
without, holds of the lines as they are read if it holds of all that line feeds
separate. -/
theorem forall_mem_lines {holds : Bytes → Prop} (ofNothing : holds [])
    (ofReturn : ∀ line, holds (withoutReturn line) ↔ holds line) (octets : Bytes) :
    (∀ line ∈ lines octets, holds line) ↔ ∀ line ∈ octets.splitOn 0x0a, holds line := by
  rw [lines_eq]
  induction octets.splitOn 0x0a with
  | nil => rfl
  | cons line rest inductionHypothesis =>
    by_cases more : rest = []
    · rw [more, ended]
      cases line with
      | nil => simp [ofNothing]
      | cons octet others => rfl
    · rw [ended_cons _ more, List.forall_mem_cons, List.forall_mem_cons, ofReturn,
        inductionHypothesis]

theorem exists_mem_lines {holds : Bytes → Prop} (notNothing : ¬ holds [])
    (ofReturn : ∀ line, holds (withoutReturn line) ↔ holds line) (octets : Bytes) :
    (∃ line ∈ lines octets, holds line) ↔ ∃ line ∈ octets.splitOn 0x0a, holds line := by
  have absent : (∀ line ∈ lines octets, ¬ holds line) ↔
      ∀ line ∈ octets.splitOn 0x0a, ¬ holds line :=
    forall_mem_lines notNothing (fun line => not_congr (ofReturn line)) octets
  simpa only [not_forall, not_not, exists_prop] using not_congr absent

/-! ## Texts between blanks -/

/-- The octets are a text, which without the blanks at its ends is the other
text. -/
def TrimsTo (octets : Bytes) (text : String) : Prop :=
  ∃ whole, Utf8.encode whole = octets ∧ trimmed whole = text

theorem TrimsTo.unique {other : String} (trims : TrimsTo octets text)
    (trimsToo : TrimsTo octets other) : text = other := by
  obtain ⟨whole, rfl, rfl⟩ := trims
  obtain ⟨_, same, rfl⟩ := trimsToo
  rw [String.toList_inj.mp (Utf8.encodeSymbols_injective same)]

theorem trimsTo_nil : TrimsTo [] "" :=
  ⟨"", rfl, rfl⟩

/-- Several octets end in a continuation octet. -/
theorem getLast?_encodeChar (symbol : Char) :
    (String.utf8EncodeChar symbol).getLast? =
      some (if symbol.toNat ≤ 0x7f then UInt8.ofNat symbol.toNat
        else UInt8.ofNat (symbol.toNat % 64 + 128)) := by
  unfold String.utf8EncodeChar
  rw [show symbol.val.toNat = symbol.toNat from rfl]
  simp only
  split
  · rfl
  · split
    · rfl
    · split <;> rfl

private theorem eq_return_of_getLast? {symbol : Char}
    (ends : (String.utf8EncodeChar symbol).getLast? = some 0x0d) : symbol = '\r' := by
  rw [getLast?_encodeChar] at ends
  have octet := congrArg UInt8.toNat (Option.some.inj ends)
  change _ = 13 at octet
  have number : symbol.toNat = 13 := by
    split at octet
    · rw [UInt8.toNat_ofNat'] at octet
      omega
    · rw [UInt8.toNat_ofNat'] at octet
      omega
  exact Char.ext (UInt32.toNat_inj.mp number)

/-- A carriage return at the end is a blank like others. -/
theorem trimsTo_append_return : TrimsTo (front ++ [0x0d]) text ↔ TrimsTo front text := by
  constructor
  · rintro ⟨whole, spelled, rfl⟩
    rcases List.eq_nil_or_concat whole.toList with void | ⟨symbols, last, split⟩
    · rw [Utf8.encode, void] at spelled
      exact absurd spelled.symm (by simp [Utf8.encodeSymbols])
    · rw [List.concat_eq_append] at split
      have octets : Utf8.encodeSymbols [last] = String.utf8EncodeChar last := by
        rw [Utf8.encodeSymbols_cons]
        exact List.append_nil _
      rw [Utf8.encode, split, Utf8.encodeSymbols_append, octets] at spelled
      have ends := congrArg List.getLast? spelled
      rw [List.getLast?_append_of_ne_nil _ String.utf8EncodeChar_ne_nil,
        List.getLast?_concat] at ends
      obtain rfl := eq_return_of_getLast? ends
      refine ⟨String.ofList symbols, ?_, ?_⟩
      · rw [Utf8.encode, String.toList_ofList]
        exact (List.append_inj' spelled rfl).1
      · rw [trimmed, trimmed, split, String.toList_ofList, trim_append_mark (by decide)]
  · rintro ⟨whole, rfl, rfl⟩
    refine ⟨String.ofList (whole.toList ++ ['\r']), ?_, ?_⟩
    · rw [Utf8.encode, Utf8.encode, String.toList_ofList, Utf8.encodeSymbols_append]
      rfl
    · rw [trimmed, trimmed, String.toList_ofList, trim_append_mark (by decide)]

theorem trimsTo_withoutReturn : TrimsTo (withoutReturn line) text ↔ TrimsTo line text := by
  unfold withoutReturn
  split
  · rename_i ends
    obtain ⟨front, rfl⟩ := List.getLast?_eq_some_iff.mp ends
    rw [List.dropLast_concat, trimsTo_append_return]
  · rfl

end ContentStore.Text
