import ContentStore.CommandLine.Replay
import ContentStore.Http.Wire
import Std.Async.DNS
import Std.Async.TCP
import Std.Time.DateTime.Timestamp

/-!
Contract: the program.

Owns: finding out what a run wants to know, from files, from servers and from
the clock, and printing what it ends with.

Does not own: connections that are encrypted; a request that needs one is not
answered.
-/

namespace ContentStore

open CommandLine

def Bytes.ofArray (array : ByteArray) : Bytes :=
  array.toList

def Bytes.pack (octets : Bytes) : ByteArray :=
  ⟨List.toArray octets⟩

def systemNumber : IO.Error → Nat
  | .noFileOrDirectory _ number _ | .permissionDenied _ number _ | .alreadyExists _ number _
  | .inappropriateType _ number _ | .invalidArgument _ number _ | .interrupted _ number _
  | .resourceExhausted _ number _ | .otherError number _ => number.toNat
  | _ => 0

def IoKind.ofSystem (failure : IO.Error) : IoKind :=
  match systemNumber failure with
  | 2 => .notFound
  | 13 => .permissionDenied
  | 17 => .alreadyExists
  | 20 => .notADirectory
  | 21 => .isADirectory
  | 22 => .invalidInput
  | 39 => .directoryNotEmpty
  | _ => .other

/-- What an action gives, or the kind of its failure. -/
def attempted {Value : Type} (action : IO Value) : IO (Except IoKind Value) := do
  match ← action.toBaseIO with
  | .ok value => return .ok value
  | .error failure => return .error (IoKind.ofSystem failure)

def readFile (path : String) : IO (Except IoKind (Except IoKind Bytes)) := do
  match ← attempted (IO.FS.Handle.mk path .read) with
  | .error kind => return .error kind
  | .ok handle =>
    let content ← attempted handle.readBinToEnd
    return .ok (content.map Bytes.ofArray)

def createFile (path : String) (content : Bytes) : IO (Except IoKind Unit) :=
  attempted do
    let handle ← IO.FS.Handle.mk path .write
    handle.write content.pack

/-- The addresses of a host; a name is looked up. -/
def socketAddresses (host : String) (port : Nat) :
    Std.Async.Async (List Std.Net.SocketAddress) := do
  let plain := String.ofList (host.toList.filter fun symbol => symbol != '[' && symbol != ']')
  let addresses ← Std.Async.DNS.getAddrInfo plain (toString port)
  return addresses.toList.map fun
    | .v4 address => .v4 ⟨address, port.toUInt16⟩
    | .v6 address => .v6 ⟨address, port.toUInt16⟩

/-- A connection to the first of some addresses that accepts one. -/
def connectTo : List Std.Net.SocketAddress → Std.Async.Async (Option Std.Async.TCP.Socket.Client)
  | [] => return none
  | address :: others => do
    let client ← Std.Async.TCP.Socket.Client.mk
    try
      client.connect address
      return some client
    catch _ => connectTo others

/-- Receive octets to the end of a connection. -/
partial def receiveAll (client : Std.Async.TCP.Socket.Client) (received : ByteArray) :
    Std.Async.Async ByteArray := do
  match ← client.recv? 65536 with
  | some more => receiveAll client (received ++ more)
  | none => return received

/-- Send a request over a connection of its own. -/
def exchange (request : Http.Request) : Std.Async.Async ByteArray := do
  match ← connectTo (← socketAddresses request.host request.port) with
  | none => return ByteArray.empty
  | some client =>
    client.send request.write.pack
    receiveAll client ByteArray.empty

def answerTo (request : Http.Request) : IO (Option Http.Response) := do
  match request.scheme with
  | .https => return none
  | .http =>
    match ← (exchange request).block.toBaseIO with
    | .ok received => return Http.Response.read? (Bytes.ofArray received)
    | .error _ => return none

/-- Print what a run ended with. -/
def finish (outcome : Outcome) : IO UInt32 := do
  let output ← IO.getStdout
  output.write outcome.output.pack
  output.flush
  match outcome.failure with
  | some failure => IO.eprint failure.report
  | none => pure ()
  return outcome.status.toUInt32

/-- Find out what a run wants until it ends.  The store was opened at the moment
`began`, if it is open yet. -/
partial def drive (arguments : List String) (clock : Calendar.Instant) (began : Option Nat)
    (known : Known) (answers : List (Option Http.Response)) : IO UInt32 := do
  let moment ← IO.monoMsNow
  let opened := began <|> if isOpened arguments clock known answers then some moment else none
  let elapsed := UInt64.ofNat (moment - opened.getD moment)
  match attempt arguments clock elapsed known answers with
  | .inl outcome => finish outcome
  | .inr (.read path) =>
    let outcome ← readFile path
    drive arguments clock opened { known with reads := (path, outcome) :: known.reads } answers
  | .inr (.create path content) =>
    let outcome ← createFile path content
    drive arguments clock opened
      { known with creations := (path, outcome) :: known.creations } answers
  | .inr (.answer request) =>
    let response ← answerTo request
    drive arguments clock opened known (answers ++ [response])

def now : IO Calendar.Instant := do
  let timestamp ← Std.Time.Timestamp.now
  return ⟨timestamp.val.second.val, timestamp.val.nano.val.toNat⟩

end ContentStore

/-- The program: carry out the command line. -/
def main (arguments : List String) : IO UInt32 := do
  let clock ← ContentStore.now
  ContentStore.drive arguments clock none ContentStore.CommandLine.Known.nothing []
