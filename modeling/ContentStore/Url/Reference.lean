import ContentStore.Url.Basic

/-!
Contract: addresses relative to another one, as answers that redirect give
them.

Owns:
- `Reference`, the parts of a relative or absolute address;
- `Reference.ofText?`, which accepts only what is spelled without any character
  that would have to be escaped;
- `Redirection`, what following a reference from an address leads to.

A reference is resolved without being spelled anew: what it names is sent as it
stands.
-/

namespace ContentStore.Url

/-- The parts of a reference. -/
structure Reference where
  scheme : Option String
  authority : Option (List Char)
  path : List Char
  query : Option (List Char)
deriving DecidableEq, Repr

/-- What a name in a reference may hold. -/
def isPlain (symbol : Char) : Bool :=
  symbol.isAlphanum || "-._~!$&'()*+,;=".toList.contains symbol

def isPlainInPath (symbol : Char) : Bool :=
  isPlain symbol || symbol == ':' || symbol == '@' || symbol == '/'

def isPlainInQuery (symbol : Char) : Bool :=
  isPlainInPath symbol || symbol == '?'

/-- Whether a text holds only characters of a class and spelled octets. -/
def isSpelled (isAllowed : Char → Bool) : List Char → Bool
  | '%' :: high :: low :: rest =>
    (Bytes.Hex.value? high).isSome && (Bytes.Hex.value? low).isSome && isSpelled isAllowed rest
  | symbol :: rest => symbol != '%' && isAllowed symbol && isSpelled isAllowed rest
  | [] => true

/-- Whether an authority is well formed: a login, a host and a port. -/
def isAuthority (authority : List Char) : Bool :=
  let (login, address) := (cutLast '@' authority).getD ([], authority)
  let (host, port) := cutPort false address
  isSpelled (fun symbol => isPlain symbol || symbol == ':') login &&
    (port.drop 1).all Text.Decimal.isDigit &&
    match host with
    | '[' :: _ => (Host.ofSymbols? host).isSome
    | _ => isSpelled isPlain host

/-- The scheme at the front of a reference, and what follows it. -/
def cutScheme (symbols : List Char) : Option (String × List Char) :=
  let inScheme := fun symbol : Char =>
    symbol.isAlphanum || symbol == '+' || symbol == '-' || symbol == '.'
  match symbols.dropWhile inScheme, symbols.head? with
  | ':' :: rest, some first =>
    if first.isAlpha then
      some (String.ofList ((symbols.takeWhile inScheme).map Char.toLower), rest)
    else none
  | _, _ => none

namespace Reference

def ofText? (text : String) : Option Reference :=
  let symbols := text.toList
  let beforeFragment := symbols.takeWhile (· != '#')
  let fragment := (symbols.dropWhile (· != '#')).drop 1
  let hierarchy := beforeFragment.takeWhile (· != '?')
  let query :=
    match beforeFragment.dropWhile (· != '?') with
    | _ :: rest => some rest
    | [] => none
  let (scheme, rest) :=
    match cutScheme hierarchy with
    | some (scheme, rest) => (some scheme, rest)
    | none => (none, hierarchy)
  let (authority, path) :=
    match rest with
    | '/' :: '/' :: rest => (some (rest.takeWhile (· != '/')), rest.dropWhile (· != '/'))
    | _ => (none, rest)
  let hasColonFirst := (path.takeWhile (· != '/')).contains ':'
  if scheme.isNone ∧ authority.isNone ∧ hasColonFirst then none
  else if authority.all isAuthority ∧ isSpelled isPlainInPath path ∧
      query.all (isSpelled isPlainInQuery) ∧ isSpelled isPlainInQuery fragment then
    some ⟨scheme, authority, path, query⟩
  else none

/-- Resolve segments of one or two points in a path that begins with a slash. -/
def removeDots (kept : List (List Char)) : List (List Char) → List (List Char)
  | [] => kept.reverse
  | segment :: rest =>
    if segment = ['.', '.'] then
      removeDots (if rest.isEmpty then [] :: kept.drop 1 else kept.drop 1) rest
    else if segment = ['.'] then removeDots (if rest.isEmpty then [] :: kept else kept) rest
    else removeDots (segment :: kept) rest

/-- A path without segments of points. -/
def plainPath (path : List Char) : List Char :=
  match path with
  | '/' :: rest => '/' :: ['/'].intercalate (removeDots [] (Text.fields (· == '/') rest))
  | _ => path

/-- The path of a reference without scheme and authority, seen from a path. -/
def pathFrom (base : List Char) (reference : Reference) : List Char :=
  match reference.path with
  | [] => base
  | '/' :: _ => plainPath reference.path
  | path => plainPath ((((cutLast '/' base).map (·.1)).getD []) ++ '/' :: path)

end Reference

/-- What following a reference leads to. -/
inductive Redirection where
  | nowhere
  /-- To something that no request can be sent to. -/
  | unusable
  | address (url : Url)
deriving DecidableEq, Repr

/-- The address of an authority, a path and a query, sent as they stand. -/
def ofParts (scheme : Scheme) (authority path : List Char) (query : Option (List Char)) :
    Redirection :=
  let host := (cutPort false (((cutLast '@' authority).map (·.2)).getD authority)).1
  let path := if path.isEmpty then ['/'] else path
  let written :=
    scheme.name.toList ++ "://".toList ++ authority ++ path ++ (query.map ('?' :: ·)).getD []
  if authority.isEmpty then .nowhere
  else
    match Url.ofText? (String.ofList written) with
    | none => .unusable
    | some url =>
      .address ⟨scheme, none, String.ofList host, url.port, String.ofList path,
        query.map String.ofList⟩

def follow (base : Url) (location : String) : Redirection :=
  match Reference.ofText? location, Reference.ofText? base.text with
  | some reference, some _ =>
    match reference.scheme, reference.authority with
    | some name, some authority =>
      match Scheme.ofName? name with
      | some scheme =>
        ofParts scheme authority (Reference.plainPath reference.path) reference.query
      | none => .unusable
    | some _, none => .unusable
    | none, some authority =>
      ofParts base.scheme authority (Reference.plainPath reference.path) reference.query
    | none, none =>
      let query :=
        if reference.path.isEmpty ∧ reference.query.isNone then base.query.map String.toList
        else reference.query
      ofParts base.scheme base.authority.toList (reference.pathFrom base.path.toList) query
  | _, _ => .nowhere

end ContentStore.Url
