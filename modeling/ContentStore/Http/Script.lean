import ContentStore.Http.Exchange

/-!
Contract: a server that gives prepared answers.

Owns: `Script`, which answers each request that reaches it with the next of its
responses, and keeps the requests.  When it has no more responses, it ends every
connection.  To a request that only asks for headers it sends no body.
-/

namespace ContentStore.Http

/-- A server that gives prepared answers. -/
structure Script where
  /-- The answers that are left; `none` ends the connection. -/
  responses : List (Option Response)
  /-- The requests so far, earliest first. -/
  requests : List Request
  /-- Whether there is a connection over which a request reaches the server. -/
  isReached : Request → Bool

namespace Script

/-- The response to a method, without a body if none is asked for. -/
def respond (method : Method) (response : Response) : Response :=
  if method = .head then { response with content := [] } else response

/-- A server that every request reaches. -/
def ofResponses (responses : List (Option Response)) : Script :=
  ⟨responses, [], fun _ => true⟩

/-- The server after a request that reached it. -/
def later (request : Request) (script : Script) : Script :=
  { script with
    responses := script.responses.drop 1
    requests := script.requests ++ [request] }

def answer (request : Request) (script : Script) : Option Response × Script :=
  if script.isReached request then
    (script.responses.head?.join.map (respond request.method), script.later request)
  else (none, script)

instance : Server Script where
  answer := Script.answer

end Script

end ContentStore.Http
