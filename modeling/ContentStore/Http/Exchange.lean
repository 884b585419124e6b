import ContentStore.Http.Reply
import ContentStore.Url.Reference

/-!
Contract: sending requests and following redirections.

Owns:
- `Server`, whatever answers requests, one after the other;
- `Call`, a request together with the address it goes to;
- `Call.send`, which sends a call, and further ones as long as the answers
  redirect it.

A call is not sent if a header cannot hold its value.  Where an answer redirects,
a call whose body has been used up is not sent again, and headers with secrets go
to the same host and port only.

Does not own: names, connections, time limits.
-/

namespace ContentStore.Http

/-- Whatever answers requests. -/
class Server (State : Type) where
  /-- The answer to a request, unless there is no connection or it ends without
  one. -/
  answer : Request → State → Option Response × State

/-- A request that is about to be sent. -/
structure Call where
  method : Method
  url : Url
  /-- The name of the host that is asked for, if it is not that of the address. -/
  host : Option String
  headers : List Header
  content : Option Bytes
deriving DecidableEq, Repr

namespace Call

def loginHeader (login : String × String) : Header :=
  ⟨"authorization", "Basic " ++ String.ofList (Bytes.Base64.encode
    (Text.Utf8.encode (login.1 ++ ":" ++ login.2)))⟩

/-- A call to an address, with the login of the address in front of the other
headers. -/
def toAddress (method : Method) (url : Url) (host : Option String) (headers : List Header)
    (content : Option Bytes) : Call :=
  ⟨method, url, host, (url.login.map loginHeader).toList ++ headers, content⟩

def lengthHeader (content : Bytes) : Header :=
  ⟨"content-length", Text.Decimal.text content.length⟩

def request (call : Call) : Request :=
  ⟨call.url.scheme, call.url.host, call.url.reachedPort, call.method, call.url.target,
    ⟨"accept", "*/*"⟩ :: ⟨"host", call.host.getD call.url.authority⟩ ::
      call.headers ++ (call.content.map lengthHeader).toList,
    call.content⟩

/-- Whether the headers can hold their values. -/
def isSendable (call : Call) : Bool :=
  call.headers.all Header.isSound && call.host.all Header.isValue

def redirections : List Nat := [301, 302, 303, 307, 308]

/-- The status by which an answer names another address to fetch it from. -/
def seeOther : Nat := 303

/-- The call that a status makes of one: to see another address is to fetch
from there, without a body. -/
def underStatus (status : Nat) (call : Call) : Call :=
  if status = seeOther then
    { call with
      method := if call.method = .head then .head else .get
      content := none }
  else call

def usual (url : Url) : Url :=
  (Url.ofText? url.text).getD url

/-- Whether two addresses are of one host and port. -/
def sameOrigin (left right : Url) : Bool :=
  (usual left).host == (usual right).host &&
    (usual left).reachedPort == (usual right).reachedPort

/-- The header that names the address a call comes from, which is not told if a
call that was encrypted goes on as it is. -/
def refererHeader? (source target : Url) : Option Header :=
  if source.scheme = .https ∧ target.scheme = .http then none
  else some ⟨"referer", (usual source).text⟩

def sentOn (call : Call) (url : Url) : Call :=
  let kept := call.headers.filter fun header =>
    header.name != "referer" && (header.name != "authorization" || sameOrigin call.url url)
  { call with
    url := url
    headers := kept ++ (refererHeader? call.url url).toList }

/-- What an answer makes of a call. -/
inductive Outcome where
  | final
  /-- The answer redirects to something that cannot be used. -/
  | failed
  | next (call : Call)

def outcome (call : Call) (reply : Reply) : Outcome :=
  let call := call.underStatus reply.status
  if redirections.contains reply.status ∧ call.content.isNone then
    match Header.value? "location" reply.headers with
    | none => .final
    | some location =>
      match Url.follow call.url location with
      | .nowhere => .final
      | .unusable => .failed
      | .address url => .next (call.sentOn url)
  else .final

section Send

variable {State : Type} [Server State]

def exchange (call : Call) (server : State) : Option Reply × State :=
  if call.isSendable then
    let (response, after) := Server.answer call.request server
    (response.bind (Response.reply? call.method), after)
  else (none, server)

/-- Send a call and follow at most `fuel` redirections. -/
def sendWithin : (fuel : Nat) → Call → State → Option Reply × State
  | fuel, call, server =>
    match call.exchange server with
    | (none, after) => (none, after)
    | (some reply, after) =>
      match call.outcome reply, fuel with
      | .final, _ => (some reply, after)
      | .failed, _ => (none, after)
      | .next _, 0 => (none, after)
      | .next next, fuel + 1 => sendWithin fuel next after

def redirectionLimit : Nat := 10

/-- Send a call; nothing comes back if there was no answer, or too many
redirections. -/
def send (call : Call) (server : State) : Option Reply × State :=
  sendWithin redirectionLimit call server

end Send

end Call

end ContentStore.Http
