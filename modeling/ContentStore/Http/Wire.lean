import ContentStore.Http.Message

/-!
Contract: messages as the octets of a connection.

Owns:
- `Request.write`, which asks for the connection to end after the answer;
- `Response.read?`, which reads what came over such a connection.

Lines end with a line feed, before which a carriage return is dropped.

Does not own: which octets of a response are its body.
-/

namespace ContentStore.Http

def wireLine (text : String) : Bytes :=
  Text.Utf8.encode text ++ [0x0d, 0x0a]

def Header.write (header : Header) : Bytes :=
  wireLine (header.name ++ ": " ++ header.value)

def Request.write (request : Request) : Bytes :=
  wireLine (request.method.name ++ " " ++ request.target ++ " HTTP/1.1") ++
    request.headers.flatMap Header.write ++ Header.write ⟨"connection", "close"⟩ ++
    wireLine "" ++ request.content.getD []

/-- The octets of the first line, and those after it. -/
def cutLine : Bytes → Option (Bytes × Bytes)
  | [] => none
  | 0x0a :: rest => some ([], rest)
  | [0x0d] => none
  | 0x0d :: 0x0a :: rest => some ([], rest)
  | octet :: rest => (cutLine rest).map fun (line, later) => (octet :: line, later)

/-- What follows a line is shorter than the whole. -/
theorem length_cutLine_lt {octets line rest : Bytes}
    (found : cutLine octets = some (line, rest)) : rest.length < octets.length := by
  fun_induction cutLine octets generalizing line with
  | case1 => simp at found
  | case2 rest =>
    simp only [Option.some.injEq, Prod.mk.injEq] at found
    obtain ⟨_, rfl⟩ := found
    simp
  | case3 => simp at found
  | case4 rest =>
    simp only [Option.some.injEq, Prod.mk.injEq] at found
    obtain ⟨_, rfl⟩ := found
    simp only [List.length_cons]
    omega
  | case5 octet octets _ _ _ inductionHypothesis =>
    simp only [Option.map_eq_some_iff, Prod.mk.injEq] at found
    obtain ⟨⟨_, _⟩, inner, _, rfl⟩ := found
    exact Nat.lt_succ_of_lt (inductionHypothesis inner)

def Header.read? (line : Bytes) : Option Header := do
  let symbols := (← Text.Utf8.text? line).toList
  match symbols.dropWhile (· != ':') with
  | _ :: value => return ⟨String.ofList (symbols.takeWhile (· != ':')), String.ofList value⟩
  | [] => none

/-- The headers on lines up to an empty one, and the octets after it. -/
def readHeaders (octets : Bytes) : Option (List Header × Bytes) :=
  match found : cutLine octets with
  | none => none
  | some ([], rest) => some ([], rest)
  | some (line, rest) =>
    have : rest.length < octets.length := length_cutLine_lt found
    do
      let header ← Header.read? line
      let (headers, content) ← readHeaders rest
      return (header :: headers, content)
termination_by octets.length
decreasing_by all_goals assumption

def readStatus? (line : Bytes) : Option Nat := do
  let symbols := (← Text.Utf8.text? line).toList
  let digits := (symbols.drop 9).take 3
  if "HTTP/1.".toList.isPrefixOf symbols ∧ digits.length = 3 ∧
      digits.all Text.Decimal.isDigit then
    return Text.Decimal.value digits
  else none

def Response.read? (octets : Bytes) : Option Response := do
  let (line, rest) ← cutLine octets
  let status ← readStatus? line
  let (headers, content) ← readHeaders rest
  return ⟨status, headers, content⟩

end ContentStore.Http
