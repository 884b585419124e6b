import ContentStore.Bytes.Base64
import ContentStore.Calendar.Reading
import ContentStore.Hash.Sha1
import ContentStore.Text.Utf8

/-!
Contract: the signatures of requests to a bucket.

A request is signed by the HMAC-SHA1 of a text that names its method, its
content, its date and the object it is for.

Owns:
- `Method` and `SignedParts`, what a signature covers;
- `stringToSign`, the covered text;
- `signature`, which refuses an empty secret, and `authorization`, the header
  value made of it;
- `Credentials.sign`, the two headers of a signed request.

The date slot of the covered text stays empty because the date travels in a
header of its own, which the text names.

Does not own: the other headers and the address of a request.
-/

namespace ContentStore

/-- The methods of requests to a bucket. -/
inductive Method where
  | get
  | put
  | head
  | delete
deriving DecidableEq, Repr

def Method.name : Method → String
  | .get => "GET"
  | .put => "PUT"
  | .head => "HEAD"
  | .delete => "DELETE"

/-- What a signature covers besides the date. -/
structure SignedParts where
  method : Method
  /-- The digest of the content as declared by the request. -/
  contentDigest : String
  contentType : String
  bucket : String
  /-- The key of the object, empty for the bucket itself. -/
  key : String
deriving DecidableEq, Repr

namespace SignedParts

/-- A request that declares nothing about its content. -/
def plain (method : Method) (bucket key : String) : SignedParts :=
  ⟨method, "", "", bucket, key⟩

/-- The path of the object across all buckets; an unnamed bucket is left out. -/
def resource (parts : SignedParts) : List Char :=
  (if parts.bucket = "" then [] else '/' :: parts.bucket.toList) ++ '/' :: parts.key.toList

/-- The text that a signature covers. -/
def stringToSign (parts : SignedParts) (date : Calendar.Instant) : String :=
  String.ofList (parts.method.name.toList ++ ['\n'] ++
    parts.contentDigest.toList ++ ['\n'] ++
    parts.contentType.toList ++ ['\n', '\n'] ++
    "x-amz-date:".toList ++ date.wire.toList ++ ['\n'] ++
    parts.resource)

end SignedParts

namespace Signing

def signature (text secret : String) : Except StoreError String :=
  if secret = "" then .error .emptySigningKey
  else
    .ok (String.ofList (Bytes.Base64.encode
      (Hash.Sha1.authenticate (Text.Utf8.encode secret) (Text.Utf8.encode text))))

/-- The authorization header for a text under an access key. -/
def authorization (text accessKeyId secret : String) : Except StoreError String :=
  (signature text secret).map fun signature => "AWS " ++ accessKeyId ++ ":" ++ signature

end Signing

/-- The headers of a signed request. -/
structure SignedHeaders where
  authorization : String
  date : String
deriving DecidableEq, Repr

/-- An access key and its secret. -/
structure Credentials where
  accessKeyId : String
  secret : String
deriving DecidableEq, Repr

namespace Credentials

/-- The headers of a request that is signed at a given instant. -/
def sign (credentials : Credentials) (parts : SignedParts) (date : Calendar.Instant) :
    Except StoreError SignedHeaders :=
  (Signing.authorization (parts.stringToSign date) credentials.accessKeyId
      credentials.secret).map
    fun authorization => ⟨authorization, date.wire⟩

/-- What diagnostics show of credentials: never the secret. -/
def describe (credentials : Credentials) : String :=
  "Credentials \x7b access_key_id: " ++ Text.quoted credentials.accessKeyId ++
    ", secret_access_key: \"<redacted>\" \x7d"

/-- What diagnostics show of a signer with these credentials. -/
def describeSigner (credentials : Credentials) : String :=
  "Signer \x7b credentials: " ++ credentials.describe ++ " \x7d"

end Credentials

end ContentStore
