import ContentStore.CommandLine.Run
import ContentStore.Http.Script

/-!
Contract: runs that are repeated until everything they ask for is known.

A run is given what is known of the surroundings.  The first thing it asks for
beyond that is refused, which ends the run, and is noted.  Once it has been
found out, the run is repeated.

Owns:
- `Known`, what is known of files, as a disk;
- `Want`, what has to be found out;
- `attempt`, one run, which ends or wants something;
- `isOpened`, from when on the time of a collection runs.

Every file is created and every request is sent once only, since what came of
it is known from then on.

Does not own: finding out.
-/

namespace ContentStore.CommandLine

/-- What has to be found out. -/
inductive Want where
  | read (path : String)
  | create (path : String) (content : Bytes)
  | answer (request : Http.Request)

/-- What is known of files, and what was asked for beyond it. -/
structure Known where
  reads : List (String × Except IoKind (Except IoKind Bytes))
  creations : List (String × Except IoKind Unit)
  wanted : Option Want

namespace Known

def nothing : Known :=
  ⟨[], [], none⟩

/-- Reading a file, as far as it is known. -/
def read (path : String) (known : Known) : Except IoKind (Except IoKind Bytes) :=
  (known.reads.lookup path).getD (.error .other)

/-- Creating a file, as far as it is known. -/
def create (path : String) (content : Bytes) (known : Known) : Except IoKind Known :=
  match known.creations.lookup path with
  | some outcome => outcome.map fun _ => known
  | none => .ok { known with wanted := some (.create path content) }

instance : Disk Known where
  read := read
  create := create

end Known

def Command.input? : Command → Option String
  | .put file => some file
  | .collect marks _ => some marks
  | _ => none

/-- The files that a command line reads, in order. -/
def inputs (arguments : List String) : List String :=
  match Demand.ofArguments arguments with
  | .run invocation => invocation.settingsFile :: invocation.command.input?.toList
  | _ => []

/-- Whether what is known suffices to open the store. -/
def isOpened (arguments : List String) (clock : Calendar.Instant) (known : Known)
    (answers : List (Option Http.Response)) : Bool :=
  match Demand.ofArguments arguments with
  | .run invocation =>
    match loadSettings invocation.settingsFile known with
    | .ok settings =>
      let (_, server) := Store.connect invocation.repository settings clock
        (Http.Script.ofResponses answers)
      server.requests.length ≤ answers.length
    | .error _ => false
  | _ => false

/-- One run with what is known, when `elapsed` milliseconds have passed since the
store was opened; it ends, or it wants something. -/
def attempt (arguments : List String) (clock : Calendar.Instant) (elapsed : UInt64)
    (known : Known) (answers : List (Option Http.Response)) : Outcome ⊕ Want :=
  match (inputs arguments).find? fun path => (known.reads.lookup path).isNone with
  | some path => .inr (.read path)
  | none =>
    let (outcome, after, server) :=
      run arguments clock elapsed known (Http.Script.ofResponses answers)
    match after.wanted, server.requests.drop answers.length with
    | some want, _ => .inr want
    | none, request :: _ => .inr (.answer request)
    | none, [] => .inl outcome

end ContentStore.CommandLine
