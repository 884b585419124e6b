import ContentStore.Http.Chunked
import ContentStore.Http.Message
import ContentStore.Text.Decimal

/-!
Contract: what a client makes of a response.

Owns:
- `Reply`, a status, headers and a body, of which the end may be missing;
- `Framing`, how the end of a body is known, and which headers tell it;
- `Response.reply?`, nothing for a response that is none.

Does not own: what a status means to whoever asked.
-/

namespace ContentStore.Http

/-- A response as it was received. -/
structure Reply where
  status : Nat
  headers : List Header
  body : Bytes
  /-- Whether the body came to its end. -/
  isComplete : Bool
deriving DecidableEq, Repr

namespace Reply

/-- The body as text; nothing is left of one that broke off. -/
def text (reply : Reply) : String :=
  if reply.isComplete then Text.Utf8.textLossy reply.body else ""

end Reply

/-- How the end of a body is known. -/
inductive Framing where
  | empty
  /-- The body has this many octets. -/
  | sized (length : Nat)
  /-- The body tells its end itself. -/
  | chunked
  /-- The body goes on to the end of the connection. -/
  | untilEnd
deriving DecidableEq, Repr

namespace Framing

/-- The body in the octets after the headers, and whether it is complete. -/
def body : Framing → Bytes → Bytes × Bool
  | empty, _ => ([], true)
  | sized length, content => (content.take length, length ≤ content.length)
  | chunked, content => Chunked.read content
  | untilEnd, content => (content, true)

def lengthLimit : Nat := Nat.pow 2 64 - 2

def length? (written : List Char) : Option Nat :=
  let digits := Text.trim Header.isBlank written
  let length := Text.Decimal.value digits
  if digits.isEmpty ∨ ¬ digits.all Text.Decimal.isDigit ∨ lengthLimit ≤ length then none
  else some length

def agreedLength? (values : List String) : Option Nat := do
  let lengths ← (values.flatMap fun value =>
    Text.fields (· == ',') value.toList).mapM length?
  let length ← lengths.head?
  if lengths.all (· == length) then return length else none

/-- Whether the last encoding that was applied is the one in chunks. -/
def endsChunked (values : List String) : Bool :=
  let value := (values.getLastD "").toList
  let encodings := Text.fields (· == ',') value
  value.all (fun symbol => symbol.toNat < 0x80) &&
    (Text.trim Header.isBlank (encodings.getLastD [])).map Char.toLower == "chunked".toList

/-- How the end of the body is known; nothing if the headers contradict each
other. -/
def ofHeaders? (headers : List Header) : Option Framing :=
  match Header.values "transfer-encoding" headers, Header.values "content-length" headers with
  | [], [] => some untilEnd
  | [], lengths => (agreedLength? lengths).map sized
  | encodings, _ => some (if endsChunked encodings then chunked else untilEnd)

/-- Whether no body follows, whatever the headers say. -/
def isBodiless (method : Method) (status : Nat) : Bool :=
  method == .head || status == 101 || status == 204 || status == 304

/-- How the end of the body of a response to a method is known. -/
def ofResponse? (method : Method) (status : Nat) (headers : List Header) : Option Framing :=
  if isBodiless method status then some empty else ofHeaders? headers

end Framing

def isFinal (status : Nat) : Bool :=
  status == 101 || (200 ≤ status && status < 1000)

/-- The response to a request with a method, as it is received. -/
def Response.reply? (method : Method) (response : Response) : Option Reply :=
  if isFinal response.status ∧ response.headers.all Header.isSound then
    let headers := response.headers.map Header.received
    (Framing.ofResponse? method response.status headers).map fun framing =>
      let (body, isComplete) := framing.body response.content
      ⟨response.status, headers, body, isComplete⟩
  else none

end ContentStore.Http
