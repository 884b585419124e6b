import ContentStore.Signing
import ContentStore.Text.Decimal
import ContentStore.Text.Split
import ContentStore.Url.Basic

/-!
Contract: the messages that a client and a server exchange.

Owns:
- `Header`, a name and a value; names are the same in either case, and blanks
  around a value do not belong to it;
- `Request`, as it arrives at a server;
- `Response`, as it leaves a server: a status, headers, and the octets that
  follow them before the connection ends.

Does not own: where a request is sent, and which of the octets of a response
are its body.
-/

namespace ContentStore.Http

structure Header where
  name : String
  value : String
deriving DecidableEq, Repr

namespace Header

/-- What names may hold besides letters and digits. -/
def nameMarks : List Char :=
  "!#$%&'*+-.^_`|~".toList

/-- Whether a text can be the name of a header. -/
def isName (text : String) : Bool :=
  text != "" && text.toList.all fun symbol => symbol.isAlphanum || nameMarks.contains symbol

/-- Whether a text can be the value of a header: it holds no control other
than the tab. -/
def isValue (text : String) : Bool :=
  text.toList.all fun symbol =>
    symbol == '\t' || (0x20 ≤ symbol.toNat && symbol.toNat != 0x7f)

/-- Whether name and value can be sent. -/
def isSound (header : Header) : Bool :=
  isName header.name && isValue header.value

/-- What is trimmed off values. -/
def isBlank (symbol : Char) : Bool :=
  symbol == ' ' || symbol == '\t'

/-- The header as a receiver reads it: a name in lower case, and a value
without blanks around it. -/
def received (header : Header) : Header :=
  ⟨String.ofList (header.name.toList.map Char.toLower),
    String.ofList (Text.trim isBlank header.value.toList)⟩

/-- The values under a name, which is given in lower case. -/
def values (name : String) (headers : List Header) : List String :=
  (headers.filter fun header => header.name == name).map Header.value

/-- The first value under a name, which is given in lower case. -/
def value? (name : String) (headers : List Header) : Option String :=
  (values name headers).head?

/-- How one octet of a value is written between double quotes. -/
def quotedOctet (octet : UInt8) : List Char :=
  if octet = 0x22 then ['\\', '"']
  else if octet = 0x09 ∨ (0x20 ≤ octet ∧ octet < 0x7f) then [Char.ofNat octet.toNat]
  else ['\\', 'x'] ++ Text.hexDigits octet.toNat

def quotedValue (value : String) : String :=
  String.ofList ('"' :: (Text.Utf8.encode value).flatMap quotedOctet ++ ['"'])

def number? (value : String) : Option Nat :=
  (Text.Decimal.read Text.Decimal.words64 (Text.trim isBlank value.toList)).toOption

end Header

/-- A request, as it arrives at a server. -/
structure Request where
  /-- The kind of connection, and the host and the port that it leads to. -/
  scheme : Url.Scheme
  host : String
  port : Nat
  method : Method
  target : String
  headers : List Header
  /-- The octets of the body; a request may come without any. -/
  content : Option Bytes
deriving DecidableEq, Repr

/-- A response, as it leaves a server. -/
structure Response where
  status : Nat
  headers : List Header
  /-- The octets between the headers and the end of the connection. -/
  content : Bytes
deriving DecidableEq, Repr

def isSuccess (status : Nat) : Bool :=
  200 ≤ status && status < 300

end ContentStore.Http
