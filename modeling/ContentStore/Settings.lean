import ContentStore.ByteSize
import ContentStore.Signing
import ContentStore.Toml.Document

/-!
Contract: the settings of a store.

Settings come from a TOML document, from a flat map of properties, or from the
caller; nothing is looked up anywhere else.

Owns:
- `Settings` and what they are valid by;
- the keys of both sources and their defaults;
- which of several faults is reported.

Does not own: reading a document or a file.
-/

namespace ContentStore

/-- The settings of a store. -/
structure Settings where
  bucket : String
  accessKeyId : String
  secretAccessKey : String
  /-- The byte budget of the cache, as spelled. -/
  cacheSize : String
  /-- The domain that the bucket's name is put in front of. -/
  hostBase : String
  /-- Where requests go instead of to the bucket's own host. -/
  endpoint : Option String
  /-- How long a request may take. -/
  timeoutSeconds : Nat
deriving DecidableEq, Repr

namespace Settings

/-- How long a request may take when nothing is said. -/
def defaultTimeoutSeconds : Nat := 60

def ofCredentials (bucket : String) (credentials : Credentials) (cacheSize hostBase : String) :
    Settings :=
  ⟨bucket, credentials.accessKeyId, credentials.secret, cacheSize, hostBase, none,
    defaultTimeoutSeconds⟩

def withEndpoint (settings : Settings) (endpoint : String) : Settings :=
  { settings with endpoint := some endpoint }

/-- The settings with a timeout of whole seconds, at least one. -/
def withTimeoutSeconds (settings : Settings) (seconds : Nat) : Settings :=
  { settings with timeoutSeconds := max seconds 1 }

def credentials (settings : Settings) : Credentials :=
  ⟨settings.accessKeyId, settings.secretAccessKey⟩

def virtualHost (settings : Settings) : String :=
  settings.bucket ++ "." ++ settings.hostBase

def cacheBytes (settings : Settings) : Except StoreError Nat :=
  ByteSize.parse settings.cacheSize

/-- The fields that may not be blank, in the order they are looked at. -/
def requiredFields (settings : Settings) : List (String × String) :=
  [("bucket", settings.bucket), ("access_key_id", settings.accessKeyId),
   ("secret_access_key", settings.secretAccessKey), ("cache_size", settings.cacheSize),
   ("host_base", settings.hostBase)]

/-- Nothing, or the first fault: a blank field, a zero timeout, a cache size
that is none. -/
def validate (settings : Settings) : Except StoreError Unit :=
  match settings.requiredFields.find? fun field => Text.isBlankText field.2 with
  | some field => .error (.settings (.emptyField field.1))
  | none =>
    if settings.timeoutSeconds = 0 then .error (.settings .timeoutNotPositive)
    else settings.cacheBytes.map fun _ => ()

/-- The settings themselves, if they are valid. -/
def validated (settings : Settings) : Except StoreError Settings :=
  settings.validate.map fun _ => settings

/-! ## Properties -/

/-- The keys that properties are bound under. -/
def bucketKey : String := "binstore.bucket"

def accessKeyIdKey : String := "binstore.awsid"

def secretAccessKeyKey : String := "binstore.awssecret"

def cacheSizeKey : String := "binstore.cache.size"

def hostBaseKey : String := "binstore.host.name"

def endpointKey : String := "binstore.endpoint"

def timeoutKey : String := "binstore.timeout.secs"

/-- A property that must be bound. -/
def required (properties : List (String × String)) (key : String) : Except StoreError String :=
  match properties.lookup key with
  | some value => .ok value
  | none => .error (.settings (.missingProperty key))

def timeoutOfProperties (properties : List (String × String)) : Except StoreError Nat :=
  match properties.lookup timeoutKey with
  | none => .ok defaultTimeoutSeconds
  | some value =>
    match Text.Decimal.read Text.Decimal.words64 (Text.trim Text.isBlank value.toList) with
    | .ok seconds => .ok seconds
    | .error _ => .error (.settings (.timeoutNotANumber value))

def ofProperties (properties : List (String × String)) : Except StoreError Settings := do
  let timeoutSeconds ← timeoutOfProperties properties
  let bucket ← required properties bucketKey
  let accessKeyId ← required properties accessKeyIdKey
  let secretAccessKey ← required properties secretAccessKeyKey
  let cacheSize ← required properties cacheSizeKey
  let hostBase ← required properties hostBaseKey
  validated ⟨bucket, accessKeyId, secretAccessKey, cacheSize, hostBase,
    properties.lookup endpointKey, timeoutSeconds⟩

/-! ## Documents -/

/-- A binding that is a text, if there is one. -/
def textField (entries : Toml.Entries) (field : String) :
    Except StoreError (Option String) :=
  match entries.lookup field with
  | none => .ok none
  | some (.text value) => .ok (some value)
  | some _ => .error (.settings .malformedDocument)

/-- A binding that is a number of seconds, if there is one. -/
def secondsField (entries : Toml.Entries) (field : String) : Except StoreError (Option Nat) :=
  match entries.lookup field with
  | none => .ok none
  | some (.integer number) =>
    if 0 ≤ number then .ok (some number.toNat) else .error (.settings .malformedDocument)
  | some _ => .error (.settings .malformedDocument)

def present (field : String) : Option String → Except StoreError String
  | some value => .ok value
  | none => .error (.settings (.missingField field))

/-- The settings that the bindings of a document give.  A binding of a wrong
type is reported before a missing one. -/
def ofEntries (entries : Toml.Entries) : Except StoreError Settings := do
  let bucket ← textField entries "bucket"
  let accessKeyId ← textField entries "access_key_id"
  let secretAccessKey ← textField entries "secret_access_key"
  let cacheSize ← textField entries "cache_size"
  let hostBase ← textField entries "host_base"
  let endpoint ← textField entries "endpoint"
  let timeoutSeconds ← secondsField entries "request_timeout_secs"
  return ⟨← present "bucket" bucket, ← present "access_key_id" accessKeyId,
    ← present "secret_access_key" secretAccessKey, ← present "cache_size" cacheSize,
    ← present "host_base" hostBase, endpoint, timeoutSeconds.getD defaultTimeoutSeconds⟩

def ofToml (text : String) : Except StoreError Settings :=
  match Toml.Entries.ofText? text with
  | some entries => ofEntries entries >>= validated
  | none => .error (.settings .malformedDocument)

def ofFileContent (content : Bytes) : Except StoreError Settings :=
  match Text.Utf8.text? content with
  | some text => ofToml text
  | none => .error (.io .undecodable)

/-- What diagnostics show of settings: never the secret. -/
def describe (settings : Settings) : String :=
  "StoreConfig \x7b bucket: " ++ Text.quoted settings.bucket ++
    ", access_key_id: " ++ Text.quoted settings.accessKeyId ++
    ", secret_access_key: \"<redacted>\"" ++
    ", cache_size: " ++ Text.quoted settings.cacheSize ++
    ", host_base: " ++ Text.quoted settings.hostBase ++
    ", endpoint: " ++ Text.quotedOption settings.endpoint ++
    ", request_timeout_secs: " ++ Text.Decimal.text settings.timeoutSeconds ++ " \x7d"

end Settings

end ContentStore
