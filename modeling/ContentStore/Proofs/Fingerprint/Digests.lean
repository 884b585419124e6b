import ContentStore.Proofs.Bytes.Hex
import ContentStore.Proofs.Fingerprint
import Mathlib.Data.List.Perm.Basic
import Mathlib.Logic.ExistsUnique

/-!
Contract: fingerprints stand for digests, one for one and in the same order.

Owns:
- `wellFormed_iff_existsUnique`, by which a well-formed text spells one digest;
- `compareOfLessAndEq_ofDigest`, by which digests are compared octet by octet when
  their fingerprints are compared;
- `sort_eq_iff`, by which sorting finds the one ascending arrangement.

Does not own: which contents have which digest.
-/

namespace ContentStore.Fingerprint

variable {text : String} {left right : Digest}

/-! ## Spellings -/

private theorem toList_ofDigest (digest : Digest) :
    (ofDigest digest).text.toList = Bytes.Hex.encode digest.val :=
  String.toList_ofList

/-- The well-formed texts are the spellings of digests. -/
theorem wellFormed_iff_exists : WellFormed text ↔ ∃ digest, (ofDigest digest).text = text := by
  constructor
  · intro wellFormed
    have pairs : text.toList.length = 2 * 16 := wellFormed.1
    obtain ⟨octets, read⟩ := Bytes.Hex.exists_decode pairs wellFormed.2
    have sixteen : octets.length = 16 := by
      have spelled := Bytes.Hex.length_of_decode read
      omega
    refine ⟨⟨octets, sixteen⟩, ?_⟩
    apply String.toList_injective
    rw [toList_ofDigest]
    exact Bytes.Hex.decode_eq_some_iff.mp read
  · intro spelled
    obtain ⟨digest, spells⟩ := spelled
    rw [← spells]
    exact (ofDigest digest).wellFormed

private theorem ofDigest_injective : Function.Injective ofDigest := by
  intro left right same
  apply Subtype.ext
  apply Bytes.Hex.encode_injective
  rw [← toList_ofDigest, same, toList_ofDigest]

/-- A well-formed text spells one digest. -/
theorem wellFormed_iff_existsUnique :
    WellFormed text ↔ ∃! digest, (ofDigest digest).text = text := by
  rw [wellFormed_iff_exists]
  constructor
  · intro spelled
    obtain ⟨digest, spells⟩ := spelled
    refine ⟨digest, spells, ?_⟩
    intro other spells'
    exact ofDigest_injective (ext_text (spells'.trans spells.symm))
  · exact ExistsUnique.exists

/-! ## Order -/

private theorem ofDigest_lt_ofDigest_iff :
    ofDigest left < ofDigest right ↔ left.val < right.val := by
  have byText : ofDigest left < ofDigest right ↔
      (ofDigest left).text.toList < (ofDigest right).text.toList :=
    Iff.rfl
  rw [byText, toList_ofDigest, toList_ofDigest, Bytes.Hex.encode_lt_encode_iff]

/-- Byte strings are compared octet by octet. -/
theorem compareOfLessAndEq_octets (octets others : Bytes) :
    compareOfLessAndEq octets others = compare octets others := by
  induction octets generalizing others with
  | nil =>
    cases others with
    | nil => rfl
    | cons other rest => simp [compareOfLessAndEq]
  | cons octet rest inductionHypothesis =>
    cases others with
    | nil => simp [compareOfLessAndEq]
    | cons other rest' =>
      have first : compare octet other = compareOfLessAndEq octet other := rfl
      rw [List.compare_cons_cons, ← inductionHypothesis, first]
      simp only [compareOfLessAndEq, List.cons_lt_cons_iff, List.cons.injEq]
      by_cases less : octet < other
      · simp [less]
      · by_cases same : octet = other
        · simp [same]
        · simp [less, same]

theorem compareOfLessAndEq_ofDigest (left right : Digest) :
    compareOfLessAndEq (ofDigest left) (ofDigest right) = compare left.val right.val := by
  rw [← compareOfLessAndEq_octets]
  simp only [compareOfLessAndEq, ofDigest_lt_ofDigest_iff, ofDigest_injective.eq_iff,
    Subtype.ext_iff]

private theorem pairwise_sort (fingerprints : List Fingerprint) :
    (sort fingerprints).Pairwise fun left right => ¬ right < left := by
  have notAfter_iff (left right : Fingerprint) :
      (!decide (right < left)) = true ↔ left.text ≤ right.text := by
    rw [Bool.not_eq_true', decide_eq_false_iff_not]
    exact String.not_lt
  have transitive (first second third : Fingerprint) (before : (!decide (second < first)) = true)
      (before' : (!decide (third < second)) = true) : (!decide (third < first)) = true := by
    rw [notAfter_iff] at before before' ⊢
    exact String.le_trans before before'
  have total (first second : Fingerprint) :
      (!decide (second < first) || !decide (first < second)) = true := by
    rw [Bool.or_eq_true, notAfter_iff, notAfter_iff]
    exact String.le_total _ _
  apply (List.pairwise_mergeSort transitive total fingerprints).imp
  intro left right before
  exact String.not_lt.mpr ((notAfter_iff left right).mp before)

/-- Sorting finds the one arrangement in which no fingerprint comes before a smaller one. -/
theorem sort_eq_iff {fingerprints sorted : List Fingerprint} :
    sort fingerprints = sorted ↔
      sorted.Perm fingerprints ∧ sorted.Pairwise fun left right => ¬ right < left := by
  have rearranged : (sort fingerprints).Perm fingerprints := List.mergeSort_perm _ _
  constructor
  · intro isSorted
    rw [← isSorted]
    exact ⟨rearranged, pairwise_sort fingerprints⟩
  · intro arranged
    -- two ascending arrangements of the same members are one
    apply List.Perm.eq_of_pairwise ?_ (pairwise_sort fingerprints) arranged.2
      (rearranged.trans arranged.1.symm)
    intro left right _ _ notAfter notBefore
    exact ext_text (String.le_antisymm notAfter notBefore)

/-- The fingerprints of sorted digests are sorted. -/
theorem sort_map_ofDigest_iff {digests sorted : List Digest} :
    sort (digests.map ofDigest) = sorted.map ofDigest ↔
      sorted.Perm digests ∧ sorted.Pairwise fun left right => left.val ≤ right.val := by
  have ascending_iff : ((sorted.map ofDigest).Pairwise fun left right => ¬ right < left) ↔
      sorted.Pairwise fun left right => left.val ≤ right.val := by
    rw [List.pairwise_map]
    simp only [ofDigest_lt_ofDigest_iff, List.not_lt]
  rw [sort_eq_iff, List.map_perm_map_iff ofDigest_injective, ascending_iff]

/-! ## Fingerprints and digests -/

/-- Fingerprints are the hexadecimal spellings of digests and nothing else: each digest has a
well-formed fingerprint that is read back and stands for the same number, a text of 32 of the
sixteen digits is the fingerprint of one digest, and fingerprints compare, and are sorted, as
their digests octet by octet. -/
theorem fingerprints_are_the_spellings_of_digests :
    (∀ digest, WellFormed (ofDigest digest).text ∧
      parse (ofDigest digest).text = .ok (ofDigest digest) ∧
      Bytes.Hex.number? (ofDigest digest).text.toList = some (Bytes.ofBigEndian digest.val)) ∧
    (∀ text, WellFormed text ↔
      text.length = 32 ∧ ∀ symbol ∈ text.toList, symbol ∈ "0123456789abcdef".toList) ∧
    (∀ text, WellFormed text ↔ ∃! digest, (ofDigest digest).text = text) ∧
    (∀ left right : Digest,
      compareOfLessAndEq (ofDigest left) (ofDigest right) = compare left.val right.val) ∧
    (∀ left right, ofDigest left = ofDigest right ↔ left = right) ∧
    ∀ digests sorted : List Digest, sort (digests.map ofDigest) = sorted.map ofDigest ↔
      sorted.Perm digests ∧ sorted.Pairwise fun left right => left.val ≤ right.val := by
  refine ⟨?_, ?_, ?_, compareOfLessAndEq_ofDigest, ?_, ?_⟩
  · intro digest
    refine ⟨(ofDigest digest).wellFormed, parse_eq_ok_iff.mpr rfl, ?_⟩
    rw [toList_ofDigest, Bytes.Hex.number?_encode]
  · intro text
    unfold WellFormed
    simp only [String.length_toList, Bytes.Hex.isDigit_iff_mem]
  · intro text
    exact wellFormed_iff_existsUnique
  · intro left right
    exact ofDigest_injective.eq_iff
  · intro digests sorted
    exact sort_map_ofDigest_iff

/-- A fingerprint with a line end behind it is none. -/
example : ¬ WellFormed "d41d8cd98f00b204e9800998ecf8427e\n" := by decide

end ContentStore.Fingerprint
