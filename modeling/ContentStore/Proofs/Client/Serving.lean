import ContentStore.Proofs.Client.Sending
import ContentStore.Proofs.Fingerprint
import ContentStore.Proofs.Listing.Rendering

/-!
Contract: servers that hold a map from fingerprints to contents.

Owns:
- `Client.ServedBy`, by which a server holds a map and answers the requests of a
  client from it, with a status for each case;
- `Host`, a bucket in memory behind a server, which is one of them.

Does not own: servers that fail, redirect, or leave objects out of listings.
-/

namespace ContentStore

open Http (Header Request Response Server)
open Text.Decimal (Spells)

/-! ## Responses of a server that holds a map -/

namespace Http.Response

/-- An answer to a question for the headers of an object. -/
def TellsLength (response : Response) : Option Bytes → Prop
  | some content => response.Arrives .head 200 [] ∧
    ∃ length, response.told "content-length" = [length] ∧ Spells length.toList content.length
  | none => response.Arrives .head 404 []

def Delivers (response : Response) : Option Bytes → Prop
  | some content => response.Arrives .get 200 content
  | none => ∃ body, response.Arrives .get 404 body

def Confirms (response : Response) : Prop :=
  ∃ body, response.Arrives .put 200 body

def Removes (response : Response) : Option Bytes → Prop
  | some _ => response.Arrives .delete 204 []
  | none => ∃ body, response.Arrives .delete 404 body

/-- A document that lists every object of a map, in any order. -/
def Lists (response : Response) (contents : Contents) : Prop :=
  ∃ document listing entries, response.Arrives .get 200 (Text.Utf8.encode document) ∧
    Listing.WritesDocument listing document ∧ listing.isTruncated = false ∧
      contents.Enumerates entries ∧ listing.contents = entries.map ListedObject.ofEntry

end Http.Response

variable {State : Type} [Server State]

/-- A server responds to a request in a certain way, and holds a map then. -/
def Http.Responds (view : State → Contents) (request : Request) (server : State)
    (Holds : Response → Prop) (contents : Contents) : Prop :=
  ∃ response after, Server.answer request server = (some response, after) ∧ Holds response ∧
    view after = contents

/-- A server holds a map, of which it gives a client what it asks for and keeps
what it stores. -/
structure Client.ServedBy (client : Client) (view : State → Contents) : Prop where
  head : ∀ request server fingerprint,
    client.Asks request .head (Fingerprint.text fingerprint) none →
      Http.Responds view request server (·.TellsLength (view server fingerprint)) (view server)
  get : ∀ request server fingerprint,
    client.Asks request .get (Fingerprint.text fingerprint) none →
      Http.Responds view request server (·.Delivers (view server fingerprint)) (view server)
  put : ∀ request server fingerprint content,
    client.Asks request .put (Fingerprint.text fingerprint) (some content) →
      Http.Responds view request server Response.Confirms
        (Function.update (view server) fingerprint (some content))
  delete : ∀ request server fingerprint,
    client.Asks request .delete (Fingerprint.text fingerprint) none →
      Http.Responds view request server (·.Removes (view server fingerprint))
        (Function.update (view server) fingerprint none)
  list : ∀ request server, client.Asks request .get "" none →
    Http.Responds view request server (·.Lists (view server)) (view server)

/-! ## A bucket behind a server -/

/-- A bucket that is asked through a server. -/
structure Host where
  bucket : Bucket
  regular : bucket.Regular

namespace Host

def view (host : Host) : Contents :=
  host.bucket.contents

def keep (fingerprint : Fingerprint) (content : Bytes) (host : Host) : Host :=
  ⟨host.bucket.insert fingerprint.text (Bucket.shelved fingerprint content),
    host.regular.insert fingerprint content⟩

def drop (fingerprint : Fingerprint) (host : Host) : Host :=
  ⟨host.bucket.erase fingerprint.text, host.regular.erase fingerprint.text⟩

def lengthHeader (content : Bytes) : Header :=
  ⟨"Content-Length", Text.Decimal.text content.length⟩

/-- The answer to a request for the object under a fingerprint. -/
def answerObject (method : Method) (fingerprint : Fingerprint) (content : Option Bytes)
    (host : Host) : Response × Host :=
  match method, host.view fingerprint with
  | .put, _ => (⟨200, [], []⟩, host.keep fingerprint (content.getD []))
  | .head, some held => (⟨200, [lengthHeader held], []⟩, host)
  | .get, some held => (⟨200, [], held⟩, host)
  | .delete, some _ => (⟨204, [], []⟩, host.drop fingerprint)
  | _, none => (⟨404, [], []⟩, host)

def listing (host : Host) : Response :=
  match host.bucket.list.1 with
  | .ok objects => ⟨200, [], Text.Utf8.encode (Listing.render objects)⟩
  | .error _ => ⟨500, [], []⟩

def answer (request : Request) (host : Host) : Option Response × Host :=
  match Fingerprint.ofText? (String.ofList (request.target.toList.drop 1)) with
  | some fingerprint =>
    let (response, after) := host.answerObject request.method fingerprint request.content
    (some response, after)
  | none => (some host.listing, host)

instance : Server Host where
  answer := Host.answer

variable {client : Client} {request : Request} {method : Method} {content : Option Bytes}
  {fingerprint : Fingerprint}

private theorem answer_of_asks (asks : client.Asks request method fingerprint.text content)
    (host : Host) :
    Server.answer request host =
      (some (host.answerObject method fingerprint content).1,
        (host.answerObject method fingerprint content).2) := by
  have target : String.ofList (request.target.toList.drop 1) = fingerprint.text := by
    rw [asks.target_eq, String.toList_append]
    exact String.ofList_toList
  have found : Fingerprint.ofText? fingerprint.text = some fingerprint :=
    Fingerprint.ofText?_eq_some_iff.mpr rfl
  show answer request host = _
  unfold answer
  rw [target, found, asks.method_eq, asks.content_eq]

private theorem answer_of_asks_bucket (asks : client.Asks request method "" content) (host : Host) :
    Server.answer request host = (some host.listing, host) := by
  have target : String.ofList (request.target.toList.drop 1) = "" := by
    rw [asks.target_eq]
    rfl
  have notFound : Fingerprint.ofText? "" = none := by decide
  show answer request host = _
  unfold answer
  rw [target, notFound]

/-- Where no body is expected there is none. -/
theorem arrives_of_bodiless {status : Nat} {headers : List Header}
    (final : Http.isFinal status = true)
    (bodiless : Http.Framing.isBodiless method status = true)
    (sound : ∀ header ∈ headers, header.isSound = true) :
    (⟨status, headers, []⟩ : Response).Arrives method status [] where
  status_eq := rfl
  final := final
  sound := sound
  body := by rw [if_pos bodiless]

/-- Without headers the body goes on to the end. -/
theorem arrives_of_body {status : Nat} (final : Http.isFinal status = true)
    (bodied : Http.Framing.isBodiless method status = false) (body : Bytes) :
    (⟨status, [], body⟩ : Response).Arrives method status body where
  status_eq := rfl
  final := final
  sound := List.forall_mem_nil _
  body := by
    rw [if_neg (by rw [bodied]; decide)]
    exact .untilEnd rfl rfl rfl

private theorem lengthHeader_sound (content : Bytes) : (lengthHeader content).isSound = true := by
  have isName : Header.isName "Content-Length" = true := by decide
  have isValue : Header.isValue (Text.Decimal.text content.length) = true := by
    rw [Header.isValue_iff]
    exact fun symbol member => Header.isValueSymbol_of_isDigit
      ((Text.Decimal.spells_text content.length).all_digits symbol member)
  unfold Header.isSound lengthHeader
  rw [isName, isValue]
  rfl

private theorem lengthHeader_told (content : Bytes) :
    (⟨200, [lengthHeader content], []⟩ : Response).told "content-length" =
      [Text.Decimal.text content.length] := by
  have received : (lengthHeader content).received =
      ⟨"content-length", Text.Decimal.text content.length⟩ := by
    have lower : String.ofList ("Content-Length".toList.map Char.toLower) = "content-length" := by
      decide
    unfold Header.received lengthHeader
    rw [lower, Response.trim_of_spells (Text.Decimal.spells_text content.length),
      String.ofList_toList]
  unfold Response.told Header.values
  rw [List.map_singleton, received]
  rfl

private theorem keep_view (fingerprint : Fingerprint) (content : Bytes) (host : Host) :
    (host.keep fingerprint content).view = Function.update host.view fingerprint (some content) :=
  Bucket.contents_insert_object host.bucket fingerprint rfl

private theorem drop_view (fingerprint : Fingerprint) (host : Host) :
    (host.drop fingerprint).view = Function.update host.view fingerprint none :=
  host.regular.contents_erase fingerprint

end Host

/-- A bucket behind a server serves every client. -/
theorem Client.servedBy_host (client : Client) : client.ServedBy Host.view where
  head := by
    intro request host fingerprint asks
    refine ⟨_, _, Host.answer_of_asks asks host, ?_⟩
    unfold Host.answerObject
    cases present : host.view fingerprint with
    | some content =>
      have sound : ∀ header ∈ [Host.lengthHeader content], header.isSound = true := by
        intro header member
        rw [List.mem_singleton.mp member]
        exact Host.lengthHeader_sound content
      exact ⟨⟨Host.arrives_of_bodiless rfl rfl sound, _, Host.lengthHeader_told content,
        Text.Decimal.spells_text content.length⟩, rfl⟩
    | none =>
      exact ⟨Host.arrives_of_bodiless rfl rfl (List.forall_mem_nil _), rfl⟩
  get := by
    intro request host fingerprint asks
    refine ⟨_, _, Host.answer_of_asks asks host, ?_⟩
    unfold Host.answerObject
    cases present : host.view fingerprint with
    | some content => exact ⟨Host.arrives_of_body rfl rfl content, rfl⟩
    | none => exact ⟨⟨[], Host.arrives_of_body rfl rfl []⟩, rfl⟩
  put := by
    intro request host fingerprint content asks
    exact ⟨_, _, Host.answer_of_asks asks host, ⟨[], Host.arrives_of_body rfl rfl []⟩,
      Host.keep_view fingerprint content host⟩
  delete := by
    intro request host fingerprint asks
    refine ⟨_, _, Host.answer_of_asks asks host, ?_⟩
    unfold Host.answerObject
    cases present : host.view fingerprint with
    | some content =>
      exact ⟨Host.arrives_of_bodiless rfl rfl (List.forall_mem_nil _),
        Host.drop_view fingerprint host⟩
    | none =>
      have same : Function.update host.view fingerprint none = host.view := by
        rw [← present, Function.update_eq_self]
      exact ⟨⟨[], Host.arrives_of_body rfl rfl []⟩, same.symm⟩
  list := by
    intro request host asks
    obtain ⟨entries, enumerates, _, listed⟩ := host.regular.list
    have isListing : host.listing =
        ⟨200, [], Text.Utf8.encode (Listing.render (entries.map ListedObject.ofEntry))⟩ := by
      unfold Host.listing
      rw [listed]
    have simple : ∀ object ∈ entries.map ListedObject.ofEntry, Listing.IsSimple object := by
      intro object member
      obtain ⟨entry, _, rfl⟩ := List.mem_map.mp member
      exact Listing.isSimple_ofEntry entry
    refine ⟨_, _, Host.answer_of_asks_bucket asks host, ⟨_, _, entries, ?_,
      Listing.writesDocument_render simple, rfl, enumerates, rfl⟩, rfl⟩
    rw [isListing]
    exact Host.arrives_of_body rfl rfl _

end ContentStore
