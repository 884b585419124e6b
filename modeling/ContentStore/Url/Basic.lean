import ContentStore.Text.Blank
import ContentStore.Url.Host

/-!
Contract: the addresses that requests are sent to.

Owns:
- `Scheme`, the two kinds of connections, each with its usual port;
- `Url`, the parts of an address;
- `Url.ofText?`, by which blanks at the ends are dropped, tabs and line ends
  vanish, backslashes separate like slashes, segments of one or two points are
  resolved, and characters that an address cannot hold are spelled by their
  octets;
- `Url.target`, what the first line of a request names.

Only addresses of the schemes `http` and `https` can be sent to; any other text
is none.

Does not own: addresses relative to another one.
-/

namespace ContentStore

/-- How the octets of a request travel. -/
inductive Url.Scheme where
  /-- As they are. -/
  | http
  /-- Encrypted. -/
  | https
deriving DecidableEq, Repr

namespace Url.Scheme

def name : Scheme → String
  | http => "http"
  | https => "https"

/-- The port that is meant if none is named. -/
def usualPort : Scheme → Nat
  | http => 80
  | https => 443

/-- The scheme with a name in lower case. -/
def ofName? (name : String) : Option Scheme :=
  [http, https].find? fun scheme => scheme.name == name

/-- The scheme in front of the first colon, in either case, and what follows the
colon. -/
def cut? (symbols : List Char) : Option (Scheme × List Char) := do
  let isName := fun symbol => symbol != ':'
  let scheme ← ofName? (String.ofList ((symbols.takeWhile isName).map Char.toLower))
  match symbols.dropWhile isName with
  | _ :: rest => return (scheme, rest)
  | [] => none

end Url.Scheme

/-- An address. -/
structure Url where
  scheme : Url.Scheme
  /-- A name and a password that are sent along in a header. -/
  login : Option (String × String)
  host : String
  port : Option Nat
  path : String
  query : Option String
deriving DecidableEq, Repr

namespace Url

/-- The most characters of an address that can be sent to. -/
def lengthLimit : Nat := 65534

/-- The port that a connection leads to. -/
def reachedPort (url : Url) : Nat :=
  url.port.getD url.scheme.usualPort

/-- The host and the port, as a request names them. -/
def authority (url : Url) : String :=
  match url.port with
  | none => url.host
  | some port => url.host ++ ":" ++ Text.Decimal.text port

/-- The path and the query, as a request names them. -/
def target (url : Url) : String :=
  match url.query with
  | none => url.path
  | some query => url.path ++ "?" ++ query

/-- The address as text, without the login. -/
def text (url : Url) : String :=
  url.scheme.name ++ "://" ++ url.authority ++ url.target

/-- What is dropped at the ends of an address. -/
def isTrimmed (symbol : Char) : Bool :=
  symbol.toNat ≤ 0x20

/-- What vanishes inside an address. -/
def isDropped (symbol : Char) : Bool :=
  symbol == '\t' || symbol == '\n' || symbol == '\r'

def isSlash (symbol : Char) : Bool :=
  symbol == '/' || symbol == '\\'

def endsPath (symbol : Char) : Bool :=
  symbol == '?' || symbol == '#'

/-- A segment that stands for the one it is in. -/
def isSingleDot (segment : List Char) : Bool :=
  [".", "%2e"].any (·.toList == segment.map Char.toLower)

def isDoubleDot (segment : List Char) : Bool :=
  ["..", "%2e.", ".%2e", "%2e%2e"].any (·.toList == segment.map Char.toLower)

/-- Resolve segments that stand for others, after the segments `kept`, latest
first.  At the end such a segment leaves an empty one. -/
def resolveDots (kept : List (List Char)) : List (List Char) → List (List Char)
  | [] => kept.reverse
  | segment :: rest =>
    let after := if isDoubleDot segment then kept.drop 1 else kept
    if isDoubleDot segment || isSingleDot segment then
      resolveDots (if rest.isEmpty then [] :: after else after) rest
    else resolveDots (segment :: kept) rest

/-- The path that is written after the authority of an address. -/
def pathOf (written : List Char) : List Char :=
  let segments := Text.fields isSlash (written.drop 1)
  '/' :: ['/'].intercalate (resolveDots [] (segments.map (percentEncode isEscapedInPath)))

/-- The query that is written after the path of an address. -/
def queryOf : List Char → Option (List Char)
  | '?' :: rest => some (percentEncode isEscapedInQuery (rest.takeWhile (· != '#')))
  | _ => none

/-- What stands before the last occurrence of a character, and after it. -/
def cutLast (mark : Char) (symbols : List Char) : Option (List Char × List Char) :=
  let reversed := symbols.reverse
  match reversed.dropWhile (· != mark) with
  | [] => none
  | _ :: before => some (before.reverse, (reversed.takeWhile (· != mark)).reverse)

/-- The login that is written before the host of an address. -/
def loginOf (written : List Char) : Option (String × String) := do
  let name ← Text.Utf8.text? (percentDecode (written.takeWhile (· != ':')))
  let password := (written.dropWhile (· != ':')).drop 1
  match password.isEmpty, Text.Utf8.text? (percentDecode password) with
  | false, some password => return (name, password)
  | _, _ => if name.isEmpty then none else return (name, "")

/-- The host as written, and what follows it from the first colon outside of
brackets on. -/
def cutPort (inBrackets : Bool) : List Char → List Char × List Char
  | [] => ([], [])
  | symbol :: rest =>
    if symbol = ':' ∧ !inBrackets then ([], symbol :: rest)
    else
      let (host, port) :=
        cutPort (if symbol = '[' then true else if symbol = ']' then false else inBrackets) rest
      (symbol :: host, port)

/-- The port in the digits after the colon, if there are any; the usual port of
the scheme is left out. -/
def portOf? (scheme : Scheme) (written : List Char) : Option (Option Nat) :=
  let digits := written.drop 1
  if digits.isEmpty then some none
  else if !digits.all Text.Decimal.isDigit then none
  else
    let port := Text.Decimal.value digits
    if 65535 < port then none
    else if port = scheme.usualPort then some none
    else some (some port)

def ofText? (text : String) : Option Url := do
  let symbols := (Text.trim isTrimmed text.toList).filter fun symbol => !isDropped symbol
  let (scheme, rest) ← Scheme.cut? symbols
  let inAuthority := fun symbol => !isSlash symbol && !endsPath symbol
  let rest := rest.dropWhile isSlash
  let authority := rest.takeWhile inAuthority
  let rest := rest.dropWhile inAuthority
  let (login, address) :=
    match cutLast '@' authority with
    | some (login, address) => (loginOf login, address)
    | none => (none, authority)
  let (host, port) := cutPort false address
  let host ← Host.ofSymbols? host
  let port ← portOf? scheme port
  let url : Url :=
    ⟨scheme, login, String.ofList host.text, port,
      String.ofList (pathOf (rest.takeWhile (!endsPath ·))),
      (queryOf (rest.dropWhile (!endsPath ·))).map String.ofList⟩
  if lengthLimit < url.text.length then none else return url

end Url

end ContentStore
