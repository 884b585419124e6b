import ContentStore.Http.Exchange
import ContentStore.Remote
import ContentStore.Settings

/-!
Contract: a bucket that is reached by requests to a server.

Owns:
- `Client`, which signs the requests to one bucket and says where they go;
- `Link`, a client with a clock and a server;
- the calls of `Remote` on a link, and what each makes of a reply;
- `bucketExists` and `createBucket`.

The key is signed as it is given, while the address is made of it by the rules
of addresses.  An object that is absent is no failure of a deletion or of
asking for headers.

Does not own: how requests are sent, and redirections.
-/

namespace ContentStore

/-- What the requests to a bucket are made of. -/
structure Client where
  bucket : String
  credentials : Credentials
  /-- The address that keys are put behind, without slashes at its end. -/
  base : String
  /-- The host that requests ask for, if it is not that of the address. -/
  host : Option String
deriving DecidableEq, Repr

namespace Client

/-- The client that settings describe.  With an endpoint, requests go there and
ask for the host of the bucket. -/
def ofSettings (settings : Settings) : Client :=
  match settings.endpoint with
  | some endpoint =>
    ⟨settings.bucket, settings.credentials,
      String.ofList (Text.trimEnd (· == '/') endpoint.toList), some settings.virtualHost⟩
  | none =>
    ⟨settings.bucket, settings.credentials, "http://" ++ settings.virtualHost, none⟩

/-- The address of an object as text; that of the bucket has an empty key. -/
def address (client : Client) (key : String) : String :=
  client.base ++ "/" ++ key

def signature (signed : SignedHeaders) : List Http.Header :=
  [⟨"authorization", signed.authorization⟩, ⟨"x-amz-date", signed.date⟩]

/-- A signed call on an object, or on the bucket if the key is empty. -/
def call (client : Client) (now : Calendar.Instant) (method : Method) (key : String)
    (content : Option Bytes) : Except StoreError Http.Call := do
  let signed ← client.credentials.sign (SignedParts.plain method client.bucket key) now
  match Url.ofText? (client.address key) with
  | some url => return Http.Call.toAddress method url client.host (signature signed) content
  | none => throw .transport

end Client

/-- A client with a clock, and the server that answers it. -/
structure Link (Server : Type) where
  client : Client
  clock : Calendar.Instant
  server : Server

namespace Link

variable {Server : Type} [Http.Server Server]

/-- Send a signed request for an object and wait for the reply. -/
def ask (method : Method) (key : String) (content : Option Bytes) (link : Link Server) :
    Except StoreError Http.Reply × Link Server :=
  match link.client.call link.clock method key content with
  | .error cause => (.error cause, link)
  | .ok call =>
    let (reply, after) := call.send link.server
    (match reply with
      | some reply => .ok reply
      | none => .error .transport,
      { link with server := after })

def failure (reply : Http.Reply) : StoreError :=
  .remoteFailure reply.status reply.text

/-- The length that the headers of a reply tell; none at all is zero. -/
def toldLength (reply : Http.Reply) : Except StoreError Nat :=
  match Http.Header.value? "content-length" reply.headers with
  | none => .ok 0
  | some value =>
    match Http.Header.number? value with
    | some length => .ok length
    | none =>
      .error (.remoteFailure reply.status
        ("invalid Content-Length: " ++ Http.Header.quotedValue value))

/-- What a reply to a question for headers tells. -/
def presence (reply : Http.Reply) : Except StoreError Presence :=
  if reply.status = 200 then (toldLength reply).map .present
  else if reply.status = 404 then .ok .absent
  else .error (failure reply)

/-- What a reply that carries an object tells, and the octets that arrived. -/
def download (key : String) (reply : Http.Reply) : Except StoreError Nat × Bytes :=
  if reply.status = 404 then (.error (.notFound key), [])
  else if Http.isSuccess reply.status then
    (if reply.isComplete then .ok reply.body.length else .error .transport, reply.body)
  else (.error (failure reply), [])

def removal (reply : Http.Reply) : Except StoreError Removal :=
  if reply.status = 404 then .ok .alreadyAbsent
  else if Http.isSuccess reply.status then .ok .deleted
  else .error (failure reply)

/-- The objects that a reply with a listing tells of. -/
def listed (reply : Http.Reply) : Except StoreError (List ListedObject) :=
  if ¬ Http.isSuccess reply.status then .error (failure reply)
  else if ¬ reply.isComplete then .error .transport
  else (Listing.ofDocument (Text.Utf8.textLossy reply.body)).map Listing.contents

/-- Ask whether there is an object under a key. -/
def head (key : String) (link : Link Server) : Except StoreError Presence × Link Server :=
  let (reply, after) := link.ask .head key none
  (reply.bind presence, after)

/-- The length of an object; an absent one has none. -/
def contentLength (key : String) (link : Link Server) : Except StoreError Nat × Link Server :=
  let (presence, after) := link.head key
  (presence.map Presence.length, after)

def get (key : String) (link : Link Server) : (Except StoreError Nat × Bytes) × Link Server :=
  match link.ask .get key none with
  | (.ok reply, after) => (download key reply, after)
  | (.error cause, after) => ((.error cause, []), after)

def put (content : Bytes) (link : Link Server) : Except StoreError Fingerprint × Link Server :=
  let fingerprint := Fingerprint.ofContent content
  let (reply, after) := link.ask .put fingerprint.text (some content)
  (reply.bind fun reply =>
    if reply.status = 200 then .ok fingerprint
    else .error (.uploadFailed fingerprint.text reply.status),
    after)

def delete (key : String) (link : Link Server) : Except StoreError Removal × Link Server :=
  let (reply, after) := link.ask .delete key none
  (reply.bind removal, after)

def list (link : Link Server) : Except StoreError (List ListedObject) × Link Server :=
  let (reply, after) := link.ask .get "" none
  (reply.bind listed, after)

instance : Remote (Link Server) where
  bucket link := link.client.bucket
  head := head
  get := get
  put := put
  delete := delete
  list := list

/-- Whether the bucket exists, as far as the server admits it. -/
def bucketExists (link : Link Server) : Except StoreError Bool × Link Server :=
  let (reply, after) := link.ask .get "" none
  (reply.map fun reply => reply.status == 200, after)

/-- Create the bucket unless it exists; the answer tells whether that was
done. -/
def createBucket (link : Link Server) : Except StoreError Bool × Link Server :=
  match link.bucketExists with
  | (.ok true, after) => (.ok false, after)
  | (.ok false, after) =>
    let (reply, done) := after.ask .put "" none
    (reply.map fun reply => reply.status == 200, done)
  | (.error cause, after) => (.error cause, after)

end Link

end ContentStore
