import ContentStore.Bytes.Hex
import ContentStore.Hash.Md5
import ContentStore.Text.Quoted

/-!
Contract: the names of stored contents.

A content is named by the 32 lowercase hexadecimal digits of its MD5 digest.

Owns:
- `Fingerprint`, a text together with the proof that it is well formed;
- `ofText?`, which accepts exactly the well-formed texts;
- `ofDigest` and `ofContent`, which write a digest and the digest of a content.

Does not own: the error for a malformed text.
-/

namespace ContentStore

abbrev Digest := { octets : Bytes // octets.length = 16 }

namespace Fingerprint

/-- A text that spells sixteen octets: 32 lowercase hexadecimal digits and
nothing else. -/
def WellFormed (text : String) : Prop :=
  text.toList.length = 32 ∧ ∀ symbol ∈ text.toList, Bytes.Hex.IsDigit symbol

instance (text : String) : Decidable (WellFormed text) :=
  @instDecidableAnd _ _ (instDecidableEqNat _ _)
    (List.decidableBAll (fun symbol => Bytes.Hex.IsDigit symbol) text.toList)

private theorem wellFormed_encode (digest : Digest) :
    WellFormed (String.ofList (Bytes.Hex.encode digest.val)) := by
  refine ⟨?_, ?_⟩
  · simp [digest.property]
  · intro symbol member
    rw [String.toList_ofList] at member
    exact Bytes.Hex.isDigit_of_mem_encode member

end Fingerprint

/-- The name of a content. -/
structure Fingerprint where
  text : String
  wellFormed : Fingerprint.WellFormed text
deriving DecidableEq

namespace Fingerprint

/-- The fingerprint with a given text, if the text is well formed. -/
def ofText? (text : String) : Option Fingerprint :=
  if wellFormed : WellFormed text then some ⟨text, wellFormed⟩ else none

def ofDigest (digest : Digest) : Fingerprint :=
  ⟨String.ofList (Bytes.Hex.encode digest.val), wellFormed_encode digest⟩

def digestOf (content : Bytes) : Digest :=
  ⟨Hash.Md5.digest content, Hash.Md5.length_digest content⟩

def ofContent (content : Bytes) : Fingerprint :=
  ofDigest (digestOf content)

@[ext]
theorem ext_text {left right : Fingerprint} (sameText : left.text = right.text) : left = right := by
  cases left
  cases right
  simp only [mk.injEq]
  exact sameText

instance : LT Fingerprint := ⟨fun left right => left.text < right.text⟩

instance (left right : Fingerprint) : Decidable (left < right) :=
  inferInstanceAs (Decidable (left.text < right.text))

/-- Fingerprints in ascending order of their texts. -/
def sort (fingerprints : List Fingerprint) : List Fingerprint :=
  fingerprints.mergeSort fun left right => !decide (right < left)

def describe (fingerprint : Fingerprint) : String :=
  "Fingerprint(" ++ Text.quoted fingerprint.text ++ ")"

end Fingerprint

end ContentStore
