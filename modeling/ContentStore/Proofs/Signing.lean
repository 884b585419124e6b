import ContentStore.Proofs.Bytes.Base64
import ContentStore.Proofs.Calendar.Wire
import ContentStore.Proofs.Client.Headers
import ContentStore.Proofs.Text.Split
import ContentStore.Proofs.Text.Utf8

/-!
Contract: what the covered text of a request, and its signature, say about the request.

Owns:
- `SignedParts.Separable`, by which the fields of the covered text can be told apart;
- the covered text as lines, and that it determines the request and the second that its
  date shows;
- `Hash.Sha1.Collide`, the only way in which the signatures of two texts agree;
- `stringToSign_is_unambiguous`, all of this for requests.

Does not own: how hard collisions are to find, and who checks signatures.
-/

namespace ContentStore

/-! ## Signatures of texts -/

/-- Two messages that the keyed digest does not tell apart. -/
def Hash.Sha1.Collide (key message other : Bytes) : Prop :=
  message ≠ other ∧ authenticate key message = authenticate key other

/-- Authorizations under one secret agree for one text only, unless the keyed digest
collides. -/
theorem Signing.authorization_eq_iff {text other accessKeyId secret : String}
    (some_secret : secret ≠ "") :
    authorization text accessKeyId secret = authorization other accessKeyId secret ↔
      text = other ∨ Hash.Sha1.Collide (Text.Utf8.encode secret) (Text.Utf8.encode text)
        (Text.Utf8.encode other) := by
  unfold authorization signature
  rw [if_neg some_secret, if_neg some_secret]
  constructor
  · intro same
    have symbols := congrArg String.toList (Except.ok.inj same)
    simp only [String.toList_append, List.append_cancel_left_eq, String.toList_ofList] at symbols
    by_cases sameText : text = other
    · exact Or.inl sameText
    · refine Or.inr ⟨?_, Bytes.Base64.encode_injective symbols⟩
      intro sameOctets
      exact sameText (String.toList_inj.mp (Text.Utf8.encodeSymbols_injective sameOctets))
  · rintro (rfl | ⟨_, sameDigest⟩)
    · rfl
    · rw [sameDigest]

/-! ## Covered texts -/

private theorem Method.name_injective {method other : Method} (same : method.name = other.name) :
    method = other := by
  cases method <;> cases other <;> simp_all [Method.name]

private theorem Method.newline_notMem_name (method : Method) : '\n' ∉ method.name.toList := by
  cases method <;> decide

private theorem Calendar.Instant.newline_notMem_wire (instant : Instant) :
    '\n' ∉ instant.wire.toList := by
  intro member
  have isValue := (Http.Header.isValue_iff _).mp (Http.Header.isValue_wire instant)
  exact absurd (isValue '\n' member) (by decide)

namespace SignedParts

variable {parts : SignedParts}

/-- What is said about the content stays in its line, and the bucket is one segment of
a path.  The key may be any text. -/
structure Separable (parts : SignedParts) : Prop where
  digest : '\n' ∉ parts.contentDigest.toList
  type : '\n' ∉ parts.contentType.toList
  some_bucket : parts.bucket ≠ ""
  segment : '/' ∉ parts.bucket.toList

instance (parts : SignedParts) : Decidable parts.Separable :=
  decidable_of_iff ('\n' ∉ parts.contentDigest.toList ∧ '\n' ∉ parts.contentType.toList ∧
      parts.bucket ≠ "" ∧ '/' ∉ parts.bucket.toList)
    ⟨fun ⟨digest, type, some_bucket, segment⟩ => ⟨digest, type, some_bucket, segment⟩,
      fun ⟨digest, type, some_bucket, segment⟩ => ⟨digest, type, some_bucket, segment⟩⟩

/-- A covered text shows the second of its date only. -/
theorem stringToSign_shown (parts : SignedParts) {date : Calendar.Instant}
    (representable : date.Representable) :
    parts.stringToSign date.shown = parts.stringToSign date := by
  unfold stringToSign
  rw [Calendar.Instant.wire_shown representable]

/-- The covered text of a request, each field with the mark that ends it. -/
theorem toList_stringToSign (separable : parts.Separable) (date : Calendar.Instant) :
    (parts.stringToSign date).toList =
      parts.method.name.toList ++ '\n' :: (parts.contentDigest.toList ++ '\n' ::
        (parts.contentType.toList ++ '\n' :: ("\nx-amz-date:".toList ++
          (date.wire.toList ++ '\n' :: '/' :: (parts.bucket.toList ++
            '/' :: parts.key.toList))))) := by
  have dateSlot : "\nx-amz-date:".toList = '\n' :: "x-amz-date:".toList := by decide
  unfold stringToSign resource
  rw [String.toList_ofList, if_neg separable.some_bucket, dateSlot]
  simp only [List.append_assoc, List.cons_append, List.nil_append]

/-- The covered text determines the request and the wire form of the date: its lines end
at the first line feeds, and the bucket at the first slash behind its own. -/
theorem stringToSign_eq_iff {other : SignedParts} (separable : parts.Separable)
    (otherSeparable : other.Separable) {date otherDate : Calendar.Instant} :
    parts.stringToSign date = other.stringToSign otherDate ↔
      parts = other ∧ date.wire = otherDate.wire := by
  constructor
  · intro same
    have symbols := congrArg String.toList same
    rw [toList_stringToSign separable, toList_stringToSign otherSeparable,
      Text.append_mark_inj parts.method.newline_notMem_name other.method.newline_notMem_name,
      Text.append_mark_inj separable.digest otherSeparable.digest,
      Text.append_mark_inj separable.type otherSeparable.type, List.append_cancel_left_eq,
      Text.append_mark_inj date.newline_notMem_wire otherDate.newline_notMem_wire,
      List.cons.injEq, Text.append_mark_inj separable.segment otherSeparable.segment] at symbols
    simp only [String.toList_inj] at symbols
    obtain ⟨method, digest, type, dates, _, bucket, key⟩ := symbols
    refine ⟨?_, dates⟩
    cases parts
    cases other
    simp only [SignedParts.mk.injEq]
    exact ⟨Method.name_injective method, digest, type, bucket, key⟩
  · rintro ⟨rfl, dates⟩
    unfold stringToSign
    rw [dates]

/-- Requests have the same covered text if and only if they agree in method, content
digest, content type, bucket and key, whatever text their keys are, and their dates show
the same second, which is the same number of whole seconds unless a leap second is out
of place.  So a signature is valid for one request only, or else shows two messages on
which the keyed digest collides. -/
theorem stringToSign_is_unambiguous (parts other : SignedParts)
    (date otherDate : Calendar.Instant) (separable : parts.Separable)
    (otherSeparable : other.Separable) (representable : date.Representable)
    (otherRepresentable : otherDate.Representable) :
    (parts.stringToSign date = other.stringToSign otherDate ↔
      parts = other ∧ date.shown = otherDate.shown) ∧
    (date.LeapInPlace → otherDate.LeapInPlace →
      (date.shown = otherDate.shown ↔ date.wholeSecond = otherDate.wholeSecond)) ∧
    ∀ accessKeyId secret : String, secret ≠ "" →
      (Signing.authorization (parts.stringToSign date) accessKeyId secret =
          Signing.authorization (other.stringToSign otherDate) accessKeyId secret ↔
        (parts = other ∧ date.shown = otherDate.shown) ∨
          Hash.Sha1.Collide (Text.Utf8.encode secret)
            (Text.Utf8.encode (parts.stringToSign date))
            (Text.Utf8.encode (other.stringToSign otherDate))) := by
  have texts : parts.stringToSign date = other.stringToSign otherDate ↔
      parts = other ∧ date.shown = otherDate.shown := by
    rw [stringToSign_eq_iff separable otherSeparable,
      Calendar.Instant.wire_eq_iff representable otherRepresentable]
  refine ⟨texts, ?_, ?_⟩
  · exact Calendar.Instant.shown_eq_iff_wholeSecond_eq representable otherRepresentable
  · intro accessKeyId secret some_secret
    rw [Signing.authorization_eq_iff some_secret, texts]

/-- Two requests whose keys look like the rest of a covered text, and whose digest and
type are exchanged, have different texts, and one is not authorized by the signature of
the other unless the keyed digest collides on these. -/
theorem exchanged_fields_are_told_apart :
    let stored : SignedParts := ⟨.put, "text/plain", "", "logs", "/a\n/logs/"⟩
    let other : SignedParts := ⟨.put, "", "text/plain", "logs", "/a\n/logs/"⟩
    let moment : Calendar.Instant := ⟨1483228799, 1500000000⟩
    stored.Separable ∧ other.Separable ∧ moment.Representable ∧
    stored.stringToSign moment =
      "PUT\ntext/plain\n\n\nx-amz-date:Sat, 31 Dec 2016 23:59:60 +0000\n/logs//a\n/logs/" ∧
    other.stringToSign moment =
      "PUT\n\ntext/plain\n\nx-amz-date:Sat, 31 Dec 2016 23:59:60 +0000\n/logs//a\n/logs/" ∧
    stored.stringToSign moment ≠ other.stringToSign moment ∧
    (Signing.authorization (stored.stringToSign moment) "id" "secret" =
        Signing.authorization (other.stringToSign moment) "id" "secret" →
      Hash.Sha1.Collide (Text.Utf8.encode "secret")
        (Text.Utf8.encode (stored.stringToSign moment))
        (Text.Utf8.encode (other.stringToSign moment))) := by
  intro stored other moment
  have separable : stored.Separable := by decide
  have otherSeparable : other.Separable := by decide
  have representable : moment.Representable := ⟨by decide, by decide⟩
  have different : ¬ (stored = other ∧ moment.shown = moment.shown) := by decide
  obtain ⟨texts, _, authorizations⟩ := stringToSign_is_unambiguous stored other moment moment
    separable otherSeparable representable representable
  refine ⟨separable, otherSeparable, representable, by decide +kernel, by decide +kernel, ?_, ?_⟩
  · intro same
    exact different (texts.mp same)
  · intro same
    exact ((authorizations "id" "secret" (by decide)).mp same).resolve_left different

/-- A leap second after second 29 and second 30 are different seconds of which the same
is covered. -/
theorem leap_second_out_of_place_is_covered_as_the_next :
    let parts : SignedParts := ⟨.delete, "", "", "test5", "d41d8cd98f00b204e9800998ecf8427e"⟩
    let leap : Calendar.Instant := ⟨1175024189, 1500000000⟩
    let next : Calendar.Instant := ⟨1175024190, 0⟩
    parts.Separable ∧ leap.Representable ∧ next.Representable ∧
    leap.wholeSecond ≠ next.wholeSecond ∧
    parts.stringToSign leap = parts.stringToSign next ∧
    parts.stringToSign leap =
      "DELETE\n\n\n\nx-amz-date:Tue, 27 Mar 2007 19:36:30 +0000\n" ++
        "/test5/d41d8cd98f00b204e9800998ecf8427e" := by
  intro parts leap next
  have representable : leap.Representable := ⟨by decide, by decide⟩
  have nextIsShown : leap.shown = next := by decide
  have covered : parts.stringToSign leap = parts.stringToSign next := by
    rw [← nextIsShown, parts.stringToSign_shown representable]
  refine ⟨by decide, representable, ⟨by decide, by decide⟩, by decide, covered, ?_⟩
  decide +kernel

/-- A slash inside of a bucket's name would leave open where the key begins. -/
example (date : Calendar.Instant) :
    (plain .get "logs/old" "a").stringToSign date = (plain .get "logs" "old/a").stringToSign date :=
  rfl

end SignedParts

end ContentStore
