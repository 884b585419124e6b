import ContentStore.StoreError

/-!
Contract: how a failed command is reported.

Owns:
- `Failure`, a failure of the store or of a file, with what was being done;
- `Failure.chain`, the messages from the outermost to the innermost cause;
- `Failure.report`, in which the causes follow the first message, numbered if
  there are several.
-/

namespace ContentStore.CommandLine

/-- Why a command failed. -/
inductive Failure where
  | store (cause : StoreError)
  | io (cause : IoError)
  /-- A failure while something was being done. -/
  | during (activity : String) (cause : Failure)
deriving DecidableEq

namespace Failure

abbrev system (kind : IoKind) : Failure :=
  io (.system kind)

/-- The messages of a failure of the store and of its cause. -/
def storeChain (cause : StoreError) : List String :=
  match cause with
  | .io inner => [cause.message, inner.message]
  | _ => [cause.message]

/-- The messages of a failure and of its causes, outermost first. -/
def chain : Failure → List String
  | store cause => storeChain cause
  | io cause => [cause.message]
  | during activity cause => activity :: cause.chain

/-- The failure of the store at the bottom of a failure, if there is one. -/
def storeCause? : Failure → Option StoreError
  | store cause => some cause
  | io _ => none
  | during _ cause => cause.storeCause?

/-- A message of which all lines but the first are indented. -/
def hang (width : Nat) (message : String) : List Char :=
  message.toList.flatMap fun symbol =>
    if symbol = '\n' then '\n' :: List.replicate width ' ' else [symbol]

def numberedCause (number : Nat) (message : String) : List Char :=
  let digits := Text.Decimal.write number
  '\n' :: List.replicate (5 - digits.length) ' ' ++ digits ++ [':', ' '] ++ hang 7 message

def causeLines : List String → List Char
  | [] => []
  | [cause] => "\n\nCaused by:\n    ".toList ++ hang 4 cause
  | causes =>
    "\n\nCaused by:".toList ++
      (causes.zipIdx.map fun (cause, number) => numberedCause number cause).flatten

def report (failure : Failure) : String :=
  match failure.chain with
  | [] => "Error: \n"
  | message :: causes =>
    "Error: " ++ message ++ String.ofList (causeLines causes) ++ "\n"

end Failure

end ContentStore.CommandLine
