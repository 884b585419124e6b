import ContentStore.Fingerprint

/-!
Contract: the failures of reading and writing.

Owns:
- `IoKind`, what kind of failure the surroundings report;
- `IoError`, which adds the failures that the store itself finds in what it
  reads;
- the kind and the wording of each.
-/

namespace ContentStore

/-- The kinds of failure that files, readers and writers report. -/
inductive IoKind where
  | notFound
  | permissionDenied
  | connectionReset
  | brokenPipe
  | alreadyExists
  | wouldBlock
  | notADirectory
  | isADirectory
  | directoryNotEmpty
  | invalidInput
  | invalidData
  | timedOut
  | writeZero
  | interrupted
  | unexpectedEof
  | other
deriving DecidableEq, Repr

/-- The system's wording for a kind of failure. -/
def IoKind.message : IoKind → String
  | .notFound => "No such file or directory (os error 2)"
  | .permissionDenied => "Permission denied (os error 13)"
  | .connectionReset => "connection reset"
  | .brokenPipe => "broken pipe"
  | .alreadyExists => "File exists (os error 17)"
  | .wouldBlock => "operation would block"
  | .notADirectory => "Not a directory (os error 20)"
  | .isADirectory => "Is a directory (os error 21)"
  | .directoryNotEmpty => "Directory not empty (os error 39)"
  | .invalidInput => "invalid input parameter"
  | .invalidData => "invalid data"
  | .timedOut => "timed out"
  | .writeZero => "failed to write whole buffer"
  | .interrupted => "operation interrupted"
  | .unexpectedEof => "unexpected end of file"
  | .other => "other error"

/-- A failure of reading or writing. -/
inductive IoError where
  /-- The surroundings report a failure. -/
  | system (kind : IoKind)
  /-- Text was expected, but the octets are not UTF-8. -/
  | undecodable
  /-- A cached file no longer hashes to its name when it is uploaded. -/
  | changedBeforeUpload (expected stored : Fingerprint)
deriving DecidableEq

def IoError.kind : IoError → IoKind
  | .system kind => kind
  | .undecodable => .invalidData
  | .changedBeforeUpload _ _ => .invalidData

def IoError.message : IoError → String
  | .system kind => kind.message
  | .undecodable => "stream did not contain valid UTF-8"
  | .changedBeforeUpload expected stored =>
    "cache file for " ++ expected.text ++ " changed before upload (now " ++ stored.text ++ ")"

end ContentStore
