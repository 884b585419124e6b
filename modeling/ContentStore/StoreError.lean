import ContentStore.IoError
import ContentStore.Calendar.Fault
import ContentStore.Listing.Fault
import ContentStore.Settings.Fault

/-!
Contract: the failures of the store.

Owns:
- `StoreError`, one constructor for each cause;
- `message`, the wording of each;
- `isRemote` and `isNotFound`, the two classes that callers act on.

Does not own: how a command line reports a chain of failures.
-/

namespace ContentStore

/-- Why an operation of the store failed. -/
inductive StoreError where
  | invalidSize (text : String)
  /-- A text is no date; `pattern` is named when the caller chose it. -/
  | invalidDate (text : String) (pattern : Option String) (cause : DateFault)
  /-- Nothing can be signed with an empty secret. -/
  | emptySigningKey
  /-- The remote holds no object under a key. -/
  | notFound (key : String)
  /-- The remote answered with a status that the operation does not expect. -/
  | remoteFailure (status : Nat) (body : String)
  /-- The remote refused to store an object. -/
  | uploadFailed (key : String) (status : Nat)
  /-- Downloaded octets do not hash to the fingerprint they were asked for. -/
  | digestMismatch (expected actual : Fingerprint)
  /-- No complete answer came from the remote. -/
  | transport
  /-- Reading or writing failed. -/
  | io (cause : IoError)
  /-- A bucket listing could not be read. -/
  | listing (cause : ListingFault)
  | invalidFingerprint (text : String)
  | settings (cause : SettingsFault)
  /-- A collection session is already in progress. -/
  | alreadyStarted
  /-- No collection session is in progress. -/
  | notStarted
deriving DecidableEq

namespace StoreError

def message : StoreError → String
  | invalidSize text => "Invalid size: '" ++ text ++ "'"
  | invalidDate text none cause => "Invalid date: '" ++ text ++ "': " ++ cause.message
  | invalidDate text (some pattern) cause =>
    "Invalid date: '" ++ text ++ "' with '" ++ pattern ++ "': " ++ cause.message
  | emptySigningKey => "Signature failure: empty signing key"
  | notFound key => "Object does not exist: " ++ key
  | remoteFailure status body =>
    "Remote request failed with status " ++ Text.Decimal.text status ++ ": " ++ body
  | uploadFailed key status => "Upload of " ++ key ++ " failed with status " ++ Text.Decimal.text status
  | digestMismatch expected actual =>
    "Downloaded object " ++ expected.text ++ " hashes to " ++ actual.text
  | transport => "Remote transport error"
  | io cause => "I/O error: " ++ cause.message
  | listing cause => "Invalid bucket listing: " ++ cause.message
  | invalidFingerprint text => "Invalid fingerprint: '" ++ text ++ "'"
  | settings cause => "Configuration error: " ++ cause.message
  | alreadyStarted => "Garbage collection already started"
  | notStarted => "Garbage collection not started"

def isRemote : StoreError → Bool
  | remoteFailure _ _ | uploadFailed _ _ | digestMismatch _ _ | transport => true
  | _ => false

/-- Whether the remote object was absent. -/
def isNotFound : StoreError → Bool
  | notFound _ => true
  | _ => false

/-- A failure that the surroundings report. -/
abbrev system (kind : IoKind) : StoreError :=
  io (.system kind)

end StoreError

def Fingerprint.parse (text : String) : Except StoreError Fingerprint :=
  match Fingerprint.ofText? text with
  | some fingerprint => .ok fingerprint
  | none => .error (.invalidFingerprint text)

end ContentStore
