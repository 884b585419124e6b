import ContentStore.CommandLine.Disk
import ContentStore.CommandLine.Failure
import ContentStore.CommandLine.Invocation
import ContentStore.Json
import ContentStore.Store.Connect
import ContentStore.Text.Lines

/-!
Contract: carrying out a command line.

Settings are loaded first, then the store is opened, and then the command is
carried out.

Owns:
- `Outcome`, the status, the output and the failure that a program ends with;
- `perform`, what each command does with an open store;
- `run`, the whole of it.

A sweep begins only after all marks have been read.  A downloaded binary is
written only after it has been accepted.

Does not own: reading of arguments, paths, and the server.
-/

namespace ContentStore.CommandLine

/-- What a program ends with. -/
structure Outcome where
  status : Nat
  output : Bytes
  failure : Option Failure
deriving DecidableEq

def successStatus : Nat := 0

def failureStatus : Nat := 1

/-- The status after arguments that make no sense. -/
def misuseStatus : Nat := 2

/-- The status after a sum that leaves its word. -/
def overflowStatus : Nat := 101

/-- What a program ends with when a command was carried out. -/
def Outcome.ofResult : Except (Interruption Failure) Bytes → Outcome
  | .ok output => ⟨successStatus, output, none⟩
  | .error (.failure failure) => ⟨failureStatus, [], some failure⟩
  | .error .overflow => ⟨overflowStatus, [], none⟩

def line (text : String) : Bytes :=
  Text.Utf8.encode (text ++ "\n")

/-- The fingerprint in a text that may have blanks around it. -/
def readFingerprint (text : String) : Except Failure Fingerprint :=
  (Fingerprint.parse (Text.trimmed text)).mapError fun cause =>
    .during ("bad fingerprint '" ++ text ++ "'") (.store cause)

/-! ## Output -/

def objectLine (object : ListedObject) : Bytes :=
  line (object.key ++ "\t" ++ Text.Decimal.text object.size.toNat)

def ownerJson (owner : ObjectOwner) : Json :=
  .object [("ID", .ofOption owner.id), ("DisplayName", .ofOption owner.displayName)]

def objectJson (object : ListedObject) : Json :=
  .object [("Key", .string object.key), ("LastModified", .ofOption object.lastModified),
    ("ETag", .string object.etag), ("Size", .number object.size.toNat),
    ("Owner", (object.owner.map ownerJson).getD .null),
    ("StorageClass", .ofOption object.storageClass)]

def tallyJson (tally : Tally) : Json :=
  .object [("num_live", .number tally.numLive.toNat), ("size_live", .number tally.sizeLive.toNat),
    ("num_collected", .number tally.numCollected.toNat),
    ("size_collected", .number tally.sizeCollected.toNat),
    ("duration_millis", .number tally.durationMillis.toNat)]

def listingOutput (asJson : Bool) (objects : List ListedObject) : Bytes :=
  if asJson then line (Json.array (objects.map objectJson)).text
  else objects.flatMap objectLine

/-! ## Marks -/

/-- What a line of a file of marks says; blank lines say nothing. -/
def readMark (octets : Bytes) : Except Failure (Option Fingerprint) :=
  match Text.Utf8.text? octets with
  | none => .error (.io .undecodable)
  | some text => if Text.isBlankText text then .ok none else (readFingerprint text).map some

section Perform

variable {Server : Type} [Http.Server Server] {Files : Type} [Disk Files]

/-- Mark what the lines of a file say, up to the first that is bad. -/
def markLines : List Bytes → Store (Link Server) → Except Failure Unit × Store (Link Server)
  | [], store => (.ok (), store)
  | octets :: rest, store =>
    match readMark octets with
    | .error failure => (.error failure, store)
    | .ok none => markLines rest store
    | .ok (some fingerprint) =>
      match store.mark fingerprint with
      | (.ok (), marked) => markLines rest marked
      | (.error cause, after) => (.error (.store cause), after)

/-- Collect what the content of a file does not mark, in `elapsed` milliseconds. -/
def collect (marks : Except IoKind Bytes) (delete : Bool) (elapsed : UInt64)
    (store : Store (Link Server)) :
    Except (Interruption Failure) Tally × Store (Link Server) :=
  match store.startCollection with
  | (.error cause, after) => (.error (.failure (.store cause)), after)
  | (.ok (), started) =>
    match marks with
    | .error kind => (.error (.failure (.system kind)), started)
    | .ok content =>
      match markLines (Text.lines content) started with
      | (.error failure, after) => (.error (.failure failure), after)
      | (.ok (), marked) =>
        let (tally, after) := marked.stopCollection delete elapsed
        (tally.mapError (Interruption.map .store), after)

def fileReader : Except IoKind Bytes → Reader
  | .ok content => Reader.ofContent content
  | .error kind => [.failure kind]

def fetch (fingerprint : String) (store : Store (Link Server)) :
    Except Failure Bytes × Store (Link Server) :=
  match readFingerprint fingerprint with
  | .error failure => (.error failure, store)
  | .ok fingerprint =>
    match store.get fingerprint with
    | (.error cause, after) => (.error (.store cause), after)
    | (.ok binary, after) => ((after.read binary).mapError .system, after)

/-- Write a content to a file, or print it if none is named. -/
def deliver (output : Option String) (content : Bytes) (files : Files) :
    Except Failure Bytes × Files :=
  match output with
  | none => (.ok content, files)
  | some path =>
    match Disk.create path content files with
    | .ok after => (.ok [], after)
    | .error kind => (.error (.during ("creating " ++ path) (.system kind)), files)

/-- Carry out a command with an open store; the octets are the output.  A
collection takes `elapsed` milliseconds. -/
def perform (command : Command) (elapsed : UInt64) (store : Store (Link Server))
    (files : Files) : Except (Interruption Failure) Bytes × Store (Link Server) × Files :=
  match command with
  | .put file =>
    match Disk.read file files with
    | .error kind =>
      (.error (.failure (.during ("opening " ++ file) (.system kind))), store, files)
    | .ok content =>
      let (binary, after) := store.put (fileReader content)
      ((binary.mapError fun cause => .failure (.store cause)).map fun binary =>
        line binary.fingerprint.text, after, files)
  | .get fingerprint output =>
    match fetch fingerprint store with
    | (.error failure, after) => (.error (.failure failure), after, files)
    | (.ok content, after) =>
      let (delivered, written) := deliver output content files
      (delivered.mapError .failure, after, written)
  | .length fingerprint =>
    match readFingerprint fingerprint with
    | .error failure => (.error (.failure failure), store, files)
    | .ok fingerprint =>
      let (length, after) := store.length fingerprint
      ((length.mapError fun cause => .failure (.store cause)).map fun length =>
        line (Text.Decimal.text length), after, files)
  | .remove fingerprint =>
    match readFingerprint fingerprint with
    | .error failure => (.error (.failure failure), store, files)
    | .ok fingerprint =>
      let (removed, after) := store.remove fingerprint
      ((removed.mapError fun cause => .failure (.store cause)).map fun _ => [], after, files)
  | .list asJson =>
    let (objects, after) := store.list
    ((objects.mapError fun cause => .failure (.store cause)).map (listingOutput asJson),
      after, files)
  | .collect marks delete =>
    match Disk.read marks files with
    | .error kind =>
      (.error (.failure (.during ("opening " ++ marks) (.system kind))), store, files)
    | .ok content =>
      let (tally, after) := collect content delete elapsed store
      (tally.map fun tally => line (tallyJson tally).text, after, files)

def loadSettings (path : String) (files : Files) : Except Failure Settings :=
  let content : Except IoKind Bytes :=
    match Disk.read path files with
    | .ok content => content
    | .error kind => .error kind
  let loaded : Except StoreError Settings :=
    match content with
    | .ok content => Settings.ofFileContent content
    | .error kind => .error (.system kind)
  loaded.mapError fun cause => .during ("loading " ++ path) (.store cause)

def execute (invocation : Invocation) (clock : Calendar.Instant) (elapsed : UInt64)
    (files : Files) (server : Server) : Except (Interruption Failure) Bytes × Files × Server :=
  match loadSettings invocation.settingsFile files with
  | .error failure => (.error (.failure failure), files, server)
  | .ok settings =>
    match Store.connect invocation.repository settings clock server with
    | (.error cause, after) => (.error (.failure (.store cause)), files, after)
    | (.ok store, _) =>
      let (output, used, written) := perform invocation.command elapsed store files
      (output, written, used.connection.server)

/-- Carry out a command line.  The clock is the one by which requests are dated; a
collection takes `elapsed` milliseconds. -/
def run (arguments : List String) (clock : Calendar.Instant) (elapsed : UInt64) (files : Files)
    (server : Server) : Outcome × Files × Server :=
  match Demand.ofArguments arguments with
  | .help text => (⟨successStatus, Text.Utf8.encode text, none⟩, files, server)
  | .misuse => (⟨misuseStatus, [], none⟩, files, server)
  | .run invocation =>
    let (result, written, used) := execute invocation clock elapsed files server
    (.ofResult result, written, used)

end Perform

end ContentStore.CommandLine
