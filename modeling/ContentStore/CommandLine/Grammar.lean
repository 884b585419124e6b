/-!
Contract: what may stand on a command line.

Owns:
- `Grammar`, the switches, operands and further commands of a command;
- `Grammar.scan`, which reads arguments from the left and binds values to
  names.

A switch takes its value from the rest of its own argument or from the next
one.  A value is checked when the argument after it is read, so that a call for
help comes too late if what stands before it is misused.  After two dashes
everything is an operand.

Does not own: what the bound values mean.
-/

namespace ContentStore.CommandLine

/-- A value on a command line. -/
structure Value where
  /-- How help calls the value. -/
  name : String
  isPath : Bool
deriving DecidableEq, Repr

structure Switch where
  letter : Option Char
  word : String
  /-- The value that follows the switch, if one does. -/
  value : Option Value
  isRequired : Bool
  about : String
deriving DecidableEq, Repr

/-- What a command takes. -/
structure Grammar where
  name : String
  about : String
  operands : List Value
  switches : List Switch
  /-- The commands that may follow, and what they are about. -/
  commands : List (String × String)
deriving DecidableEq, Repr

/-- Why reading stopped. -/
inductive Stop where
  | help
  /-- The arguments do not make sense. -/
  | misuse
deriving DecidableEq, Repr

def helpWord : String := "help"

def helpSwitch : Switch :=
  ⟨some 'h', helpWord, none, false, "Print help"⟩

/-- Values bound to the words of switches and the names of operands. -/
abbrev Bindings := List (String × String)

/-- A name that a value belongs to, while its value is not bound. -/
structure Pending where
  key : String
  value : Value
  /-- The value, once it has been read. -/
  text : Option String
deriving DecidableEq, Repr

/-- How far the arguments have been read. -/
structure Scan where
  bound : Bindings
  pending : Option Pending
  operands : List Value
  /-- Whether two dashes have been read. -/
  isOver : Bool
deriving DecidableEq, Repr

namespace Scan

/-- Bind a value, unless one is bound already. -/
def bind (key text : String) (scan : Scan) : Except Stop Scan :=
  if (scan.bound.lookup key).isSome then .error .misuse
  else .ok { scan with bound := (key, text) :: scan.bound }

/-- Bind a value, unless it is an empty path. -/
def bindValue (key : String) (value : Value) (text : String) (scan : Scan) :
    Except Stop Scan :=
  if value.isPath ∧ text = "" then .error .misuse else scan.bind key text

/-- Bind the value that was read last. -/
def settle (scan : Scan) : Except Stop Scan :=
  match scan.pending with
  | none => .ok scan
  | some ⟨_, _, none⟩ => .error .misuse
  | some ⟨key, value, some text⟩ => ({ scan with pending := none }).bindValue key value text

/-- Whether the next argument is the value of a switch. -/
def isWaiting (scan : Scan) : Bool :=
  scan.pending.any fun pending => pending.text.isNone

def readPlain (argument : String) (scan : Scan) : Except Stop Scan :=
  match scan.pending, scan.isOver with
  | some ⟨key, value, none⟩, false =>
    .ok { scan with pending := some ⟨key, value, some argument⟩ }
  | _, _ =>
    match scan.operands with
    | [] => .error .misuse
    | operand :: rest => do
      let settled ← scan.settle
      return { settled with
        pending := some ⟨operand.name, operand, some argument⟩
        operands := rest }

/-- Read a switch, with a value if one is attached. -/
def readSwitch (switch : Switch) (attached : Option String) (scan : Scan) :
    Except Stop Scan :=
  match switch.value, attached with
  | none, none => do
    let settled ← scan.settle
    if switch.word = helpWord then throw .help
    settled.bind switch.word ""
  | none, some _ => .error .misuse
  | some value, some text => do
    let settled ← scan.settle
    settled.bindValue switch.word value text
  | some value, none => do
    let settled ← scan.settle
    return { settled with pending := some ⟨switch.word, value, none⟩ }

end Scan

namespace Grammar

def allSwitches (grammar : Grammar) : List Switch :=
  grammar.switches ++ [helpSwitch]

/-- What stands before any argument is read. -/
def start (grammar : Grammar) : Scan :=
  ⟨[], none, grammar.operands, false⟩

/-- Read a word after two dashes, with what stands behind an equals sign. -/
def readWord (grammar : Grammar) (symbols : List Char) (scan : Scan) : Except Stop Scan :=
  let word := String.ofList (symbols.takeWhile (· != '='))
  let attached :=
    match symbols.dropWhile (· != '=') with
    | _ :: text => some (String.ofList text)
    | [] => none
  match grammar.allSwitches.find? fun switch => switch.word == word with
  | some switch => scan.readSwitch switch attached
  | none => .error .misuse

/-- The value that is attached to a letter, without an equals sign. -/
def attachedTo : List Char → Option String
  | [] => none
  | '=' :: text => some (String.ofList text)
  | text => some (String.ofList text)

/-- Read letters after one dash; the first that takes a value takes the rest. -/
def readLetters (grammar : Grammar) : List Char → Scan → Except Stop Scan
  | [], scan => .ok scan
  | letter :: rest, scan =>
    match grammar.allSwitches.find? fun switch => switch.letter == some letter with
    | none => .error .misuse
    | some switch =>
      if switch.value.isSome then scan.readSwitch switch (attachedTo rest)
      else do grammar.readLetters rest (← scan.readSwitch switch none)

def readArgument (grammar : Grammar) (argument : String) (scan : Scan) : Except Stop Scan :=
  if scan.isOver then scan.readPlain argument
  else
    match argument.toList with
    | ['-', '-'] => .ok { scan with isOver := true }
    | '-' :: '-' :: symbols => grammar.readWord symbols scan
    | '-' :: letter :: letters => grammar.readLetters (letter :: letters) scan
    | _ => scan.readPlain argument

def beginsCommand (grammar : Grammar) (argument : String) (scan : Scan) : Bool :=
  !scan.isOver && !scan.isWaiting && !grammar.commands.isEmpty &&
    (argument == helpWord || (grammar.commands.lookup argument).isSome)

/-- Read arguments up to a further command, which is given with the arguments
after it. -/
def scanFrom (grammar : Grammar) : List String → Scan →
    Except Stop (Scan × Option (String × List String))
  | [], scan => .ok (scan, none)
  | argument :: rest, scan =>
    if grammar.beginsCommand argument scan then .ok (scan, some (argument, rest))
    else do grammar.scanFrom rest (← grammar.readArgument argument scan)

/-- The bindings at the end of the arguments, if all that is required is
there. -/
def finish (grammar : Grammar) (scan : Scan) : Except Stop Bindings := do
  let settled ← scan.settle
  let isBound (switch : Switch) : Bool := (settled.bound.lookup switch.word).isSome
  if settled.operands.isEmpty ∧ (grammar.switches.filter Switch.isRequired).all isBound then
    return settled.bound
  else throw .misuse

def bindings (grammar : Grammar) (arguments : List String) : Except Stop Bindings := do
  let (scan, _) ← grammar.scanFrom arguments grammar.start
  grammar.finish scan

end Grammar

end ContentStore.CommandLine
