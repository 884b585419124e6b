import ContentStore.Proofs.Settings
import ContentStore.Proofs.Text.Blank
import ContentStore.Proofs.Toml.Document

/-!
Contract: properties and documents that say the same.

Owns:
- `Given`, what both are to say, `BoundIn`, by which properties say it, and `BoundAs`,
  by which the bindings of a document do, in any order;
- that either of them gives the settings that are said, once they are validated, or
  the fault that is found there;
- that there are such documents for everything that can be said, in any order.

Does not own: how a document is read, and what is valid.
-/

namespace ContentStore.Settings

/-- What a source of settings says. -/
structure Given where
  bucket : String
  accessKeyId : String
  secretAccessKey : String
  cacheSize : String
  hostBase : String
  endpoint : Option String
  timeoutSeconds : Option Nat

namespace Given

def settings (given : Given) : Settings :=
  ⟨given.bucket, given.accessKeyId, given.secretAccessKey, given.cacheSize, given.hostBase,
    given.endpoint, given.timeoutSeconds.getD defaultTimeoutSeconds⟩

/-- What must be there, and may not be blank. -/
def requiredTexts (given : Given) : List String :=
  [given.bucket, given.accessKeyId, given.secretAccessKey, given.cacheSize, given.hostBase]

/-- Properties say what is given; the timeout is in decimal digits, and what is not
given is not bound. -/
structure BoundIn (given : Given) (properties : List (String × String)) : Prop where
  bucket : properties.lookup bucketKey = some given.bucket
  accessKeyId : properties.lookup accessKeyIdKey = some given.accessKeyId
  secretAccessKey : properties.lookup secretAccessKeyKey = some given.secretAccessKey
  cacheSize : properties.lookup cacheSizeKey = some given.cacheSize
  hostBase : properties.lookup hostBaseKey = some given.hostBase
  endpoint : properties.lookup endpointKey = given.endpoint
  noTimeout : given.timeoutSeconds = none → properties.lookup timeoutKey = none
  timeout : ∀ seconds, given.timeoutSeconds = some seconds → ∃ digits,
    properties.lookup timeoutKey = some (String.ofList digits) ∧
      Text.Decimal.Spells digits seconds

/-- The bindings of a document say what is given. -/
structure BoundAs (given : Given) (entries : Toml.Entries) : Prop where
  bucket : entries.lookup "bucket" = some (.text given.bucket)
  accessKeyId : entries.lookup "access_key_id" = some (.text given.accessKeyId)
  secretAccessKey : entries.lookup "secret_access_key" = some (.text given.secretAccessKey)
  cacheSize : entries.lookup "cache_size" = some (.text given.cacheSize)
  hostBase : entries.lookup "host_base" = some (.text given.hostBase)
  endpoint : entries.lookup "endpoint" = given.endpoint.map Toml.Item.text
  timeout : entries.lookup "request_timeout_secs" =
    given.timeoutSeconds.map fun seconds => Toml.Item.integer seconds

variable {given : Given} {properties : List (String × String)} {entries : Toml.Entries}

/-! ## Properties -/

private theorem timeoutOfProperties_eq (bound : given.BoundIn properties)
    (bounded : ∀ seconds, given.timeoutSeconds = some seconds → seconds ≤ 9223372036854775807) :
    timeoutOfProperties properties = .ok given.settings.timeoutSeconds := by
  unfold timeoutOfProperties settings
  cases told : given.timeoutSeconds with
  | none =>
    rw [bound.noTimeout told]
    rfl
  | some seconds =>
    obtain ⟨digits, value, spells⟩ := bound.timeout seconds told
    have small : seconds < Text.Decimal.words64 := by
      have least := bounded seconds told
      have words : Text.Decimal.words64 = 18446744073709551616 := rfl
      omega
    have untrimmed : Text.trim Text.isBlank digits = digits :=
      Text.trim_eq_self
        (fun symbol first => Text.Decimal.not_isBlank_of_isDigit
          (spells.all_digits symbol (List.mem_of_mem_head? first)))
        fun symbol last => Text.Decimal.not_isBlank_of_isDigit
          (spells.all_digits symbol (List.mem_of_mem_getLast? last))
    rw [value]
    simp only [String.toList_ofList, untrimmed, spells.read_eq small, Option.getD_some]

private theorem ofProperties_eq (bound : given.BoundIn properties)
    (bounded : ∀ seconds, given.timeoutSeconds = some seconds → seconds ≤ 9223372036854775807) :
    ofProperties properties = given.settings.validated := by
  unfold ofProperties required
  rw [timeoutOfProperties_eq bound bounded, bound.bucket, bound.accessKeyId, bound.secretAccessKey,
    bound.cacheSize, bound.hostBase, bound.endpoint]
  rfl

/-! ## Documents -/

private theorem ofEntries_eq (bound : given.BoundAs entries) :
    ofEntries entries = .ok given.settings := by
  have endpoint : textField entries "endpoint" = .ok given.endpoint := by
    unfold textField
    rw [bound.endpoint]
    cases given.endpoint <;> rfl
  have timeout : secondsField entries "request_timeout_secs" = .ok given.timeoutSeconds := by
    unfold secondsField
    rw [bound.timeout]
    cases given.timeoutSeconds with
    | none => rfl
    | some seconds => exact if_pos (Int.natCast_nonneg seconds)
  unfold ofEntries
  rw [endpoint, timeout]
  unfold textField
  rw [bound.bucket, bound.accessKeyId, bound.secretAccessKey, bound.cacheSize, bound.hostBase]
  rfl

private theorem ofToml_eq {document : String} (written : Toml.Flat entries document.toList)
    (distinct : (entries.map Prod.fst).Nodup) (bound : given.BoundAs entries) :
    ofToml document = given.settings.validated := by
  unfold ofToml
  rw [written.ofText?_eq distinct]
  show ofEntries entries >>= validated = _
  rw [ofEntries_eq bound]
  rfl

/-! ## Documents in any order -/

/-- The bindings of a document that says what is given, in one order. -/
def bindings (given : Given) : Toml.Entries :=
  [("bucket", .text given.bucket), ("access_key_id", .text given.accessKeyId),
    ("secret_access_key", .text given.secretAccessKey), ("cache_size", .text given.cacheSize),
    ("host_base", .text given.hostBase)] ++
    (given.endpoint.map fun endpoint => ("endpoint", .text endpoint)).toList ++
    (given.timeoutSeconds.map fun seconds => ("request_timeout_secs", .integer seconds)).toList

private theorem boundAs_bindings (given : Given) : given.BoundAs given.bindings := by
  constructor
  all_goals
    unfold bindings
    cases given.endpoint <;> cases given.timeoutSeconds <;> rfl

private theorem nodup_bindings (given : Given) : (given.bindings.map Prod.fst).Nodup := by
  unfold bindings
  cases given.endpoint <;> cases given.timeoutSeconds <;> simp

/-- What a key is bound to does not depend on the order, if no key is bound twice. -/
theorem lookup_of_perm {others : Toml.Entries} (order : entries.Perm others)
    (distinct : (entries.map Prod.fst).Nodup) (key : String) :
    entries.lookup key = others.lookup key := by
  induction order with
  | nil => rfl
  | cons entry _ inductionHypothesis =>
    obtain ⟨_, distinctRest⟩ := List.nodup_cons.mp distinct
    rw [show entry = (entry.1, entry.2) from rfl, List.lookup_cons, List.lookup_cons,
      inductionHypothesis distinctRest]
  | swap first second rest =>
    have different : second.1 ≠ first.1 := by
      intro same
      exact (List.nodup_cons.mp distinct).1 (by rw [same]; exact List.mem_cons_self)
    rw [show first = (first.1, first.2) from rfl, show second = (second.1, second.2) from rfl]
    simp only [List.lookup_cons]
    by_cases isFirst : key = first.1
    · rw [isFirst, beq_false_of_ne different.symm, beq_self_eq_true]
    · rw [beq_false_of_ne isFirst]
  | trans first _ inductionHypothesis laterHypothesis =>
    rw [inductionHypothesis distinct,
      laterHypothesis ((first.map Prod.fst).nodup_iff.mp distinct)]

private theorem boundAs_of_perm (order : given.bindings.Perm entries) : given.BoundAs entries := by
  have same (key : String) := lookup_of_perm order given.nodup_bindings key
  have bound := given.boundAs_bindings
  constructor <;> rw [← same]
  · exact bound.bucket
  · exact bound.accessKeyId
  · exact bound.secretAccessKey
  · exact bound.cacheSize
  · exact bound.hostBase
  · exact bound.endpoint
  · exact bound.timeout

/-- Whatever is said, there is a document that says it, in each order. -/
theorem flat_writeEntries
    (bounded : ∀ seconds, given.timeoutSeconds = some seconds → seconds ≤ 9223372036854775807)
    (order : given.bindings.Perm entries) :
    Toml.Flat entries (Toml.writeEntries entries) ∧ (entries.map Prod.fst).Nodup := by
  have bare : ∀ key ∈ ["bucket", "access_key_id", "secret_access_key", "cache_size", "host_base",
      "endpoint", "request_timeout_secs"], Toml.IsBareKey key := by
    decide
  have plain : ∀ entry ∈ given.bindings, Toml.IsBareKey entry.1 ∧ entry.2.IsPlain := by
    intro entry member
    unfold bindings at member
    simp only [List.mem_append, List.mem_cons, List.not_mem_nil, or_false, Option.mem_toList,
      Option.map_eq_some_iff] at member
    rcases member with ((rfl | rfl | rfl | rfl | rfl) | ⟨endpoint, _, rfl⟩) |
      ⟨seconds, told, rfl⟩
    all_goals refine ⟨bare _ (by simp), ?_⟩
    all_goals first
      | trivial
      | (have least := bounded seconds told
         exact ⟨by omega, by omega⟩)
  exact ⟨Toml.flat_write fun entry member => plain entry (order.mem_iff.mpr member),
    (order.map Prod.fst).nodup_iff.mp given.nodup_bindings⟩

/-! ## What is accepted -/

private theorem valid_settings_iff : given.settings.Valid ↔
    (∀ text ∈ given.requiredTexts, Text.isBlankText text = false) ∧
      (∃ budget, ByteSize.parse given.cacheSize = .ok budget) ∧
      given.timeoutSeconds ≠ some 0 := by
  have positive_iff : given.settings.timeoutSeconds ≠ 0 ↔ given.timeoutSeconds ≠ some 0 := by
    unfold settings
    cases given.timeoutSeconds with
    | none => simp [defaultTimeoutSeconds]
    | some seconds => simp
  have visible_iff : (∀ field ∈ given.settings.requiredFields, Text.isBlankText field.2 = false) ↔
      ∀ text ∈ given.requiredTexts, Text.isBlankText text = false := by
    simp [requiredFields, settings, requiredTexts]
  constructor
  · rintro ⟨visible, positive, sized⟩
    exact ⟨visible_iff.mp visible, sized, positive_iff.mp positive⟩
  · rintro ⟨visible, sized, positive⟩
    exact ⟨visible_iff.mpr visible, positive_iff.mpr positive, sized⟩

/-- For whatever is said, properties and a document that say it agree, in whatever
order the document does, and however it writes its strings between double quotes and
its timeout as an integer: both give the same settings, or the same failure.  They
give settings exactly if nothing that is required is blank, the size of the cache is a
size, and the timeout is not zero. -/
theorem sources_agree (given : Given)
    (bounded : ∀ seconds, given.timeoutSeconds = some seconds → seconds ≤ 9223372036854775807)
    {properties : List (String × String)} (saidInProperties : given.BoundIn properties)
    {entries : Toml.Entries} {document : String} (written : Toml.Flat entries document.toList)
    (distinct : (entries.map Prod.fst).Nodup) (saidInDocument : given.BoundAs entries) :
    ofProperties properties = ofToml document ∧
      (∀ settings, ofToml document = .ok settings → settings = given.settings) ∧
      ((∃ settings, ofToml document = .ok settings) ↔
        (∀ text ∈ given.requiredTexts, Text.isBlankText text = false) ∧
          (∃ budget, ByteSize.parse given.cacheSize = .ok budget) ∧
          given.timeoutSeconds ≠ some 0) := by
  have fromProperties := ofProperties_eq saidInProperties bounded
  have fromDocument := ofToml_eq written distinct saidInDocument
  rw [fromProperties, fromDocument, ← valid_settings_iff]
  refine ⟨rfl, fun settings accepted => (validated_eq_ok_iff.mp accepted).1, ?_⟩
  constructor
  · rintro ⟨settings, accepted⟩
    exact (validated_eq_ok_iff.mp accepted).2
  · exact fun valid => ⟨given.settings, validated_eq_ok_iff.mpr ⟨rfl, valid⟩⟩

/-! ### Strings that must be escaped -/

/-- Escapes, comments and line ends of all kinds, and a timeout in another base. -/
example :
    ofToml ("# no order\r\nrequest_timeout_secs = 0xf\n\n\"host_base\" = \"local\\u0068ost\"\n" ++
      "  secret_access_key\t= \"\\\"\\\\\\n\" # quoted\nbucket=\"bucket\"\n" ++
      "'access_key_id' = \"id\"\r\ncache_size = \"1\\U0000004B\"") =
      .ok ⟨"bucket", "id", "\"\\\n", "1K", "localhost", none, 15⟩ := by
  decide +kernel

/-- A secret of a quote, a backslash and a line feed, and nothing optional but the
timeout. -/
def unruly : Given :=
  ⟨"bucket", "id", "\"\\\n", "1K", "localhost", none, some 15⟩

def unrulyProperties : List (String × String) :=
  [(timeoutKey, "015"), (secretAccessKeyKey, "\"\\\n"), (hostBaseKey, "localhost"),
    (cacheSizeKey, "1K"), (bucketKey, "bucket"), (accessKeyIdKey, "id")]

/-- Both sources give the secret as it is, whatever it takes to write it. -/
theorem unruly_sources_agree :
    let document := String.ofList (Toml.writeEntries unruly.bindings.reverse)
    ofProperties unrulyProperties = ofToml document ∧ ofToml document = .ok unruly.settings := by
  have bounded : ∀ seconds, unruly.timeoutSeconds = some seconds →
      seconds ≤ 9223372036854775807 := by
    intro seconds told
    rw [← Option.some.inj told]
    decide
  have said : unruly.BoundIn unrulyProperties := by
    refine ⟨rfl, rfl, rfl, rfl, rfl, rfl, nofun, ?_⟩
    intro seconds told
    rw [← Option.some.inj told]
    exact ⟨['0', '1', '5'], rfl, by decide, by decide, rfl⟩
  intro document
  have order : unruly.bindings.Perm unruly.bindings.reverse := (List.reverse_perm _).symm
  obtain ⟨written, distinct⟩ := flat_writeEntries bounded order
  have spelled : Toml.Flat unruly.bindings.reverse document.toList := by
    rw [String.toList_ofList]
    exact written
  obtain ⟨agree, given, accepted⟩ :=
    sources_agree unruly bounded said spelled distinct (boundAs_of_perm order)
  obtain ⟨settings, loaded⟩ := accepted.mpr ⟨by decide, ⟨1024, by decide +kernel⟩, by decide⟩
  refine ⟨agree, ?_⟩
  rw [loaded, given settings loaded]

end Given

end ContentStore.Settings
