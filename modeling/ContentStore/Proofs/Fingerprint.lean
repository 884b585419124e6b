import ContentStore.StoreError

/-!
Contract: fingerprints and their texts.

Owns:
- that a fingerprint is read from its own text, and from no other, and that a
  malformed text is refused;
- `Fingerprint.repeated`, fingerprints that are easily told apart.

Does not own: which contents have which fingerprint.
-/

namespace ContentStore.Fingerprint

theorem ofText?_eq_some_iff {text : String} {fingerprint : Fingerprint} :
    ofText? text = some fingerprint ↔ fingerprint.text = text := by
  unfold ofText?
  constructor
  · intro named
    split at named
    · rw [← Option.some.inj named]
    · exact absurd named (by simp)
  · rintro rfl
    rw [dif_pos fingerprint.wellFormed]

theorem parse_eq_ok_iff {text : String} {fingerprint : Fingerprint} :
    parse text = .ok fingerprint ↔ fingerprint.text = text := by
  rw [← ofText?_eq_some_iff]
  unfold parse
  cases ofText? text with
  | none => simp
  | some named => simp

theorem parse_of_malformed {text : String} (bad : ¬ WellFormed text) :
    parse text = .error (.invalidFingerprint text) := by
  unfold parse ofText?
  rw [dif_neg bad]

theorem text_ne_empty (fingerprint : Fingerprint) : fingerprint.text ≠ "" := by
  intro void
  have length := fingerprint.wellFormed.1
  rw [void] at length
  exact absurd length (by decide)

def repeated (octet : UInt8) : Fingerprint :=
  ofDigest ⟨List.replicate 16 octet, List.length_replicate⟩

end ContentStore.Fingerprint
