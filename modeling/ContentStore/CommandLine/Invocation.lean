import ContentStore.CommandLine.Help

/-!
Contract: the commands of the program.

Owns:
- `Command`, what the program can be told to do;
- `Invocation`, a command with the settings file and the repository;
- `Demand.ofArguments`, what a command line asks for.

Does not own: carrying a command out.
-/

namespace ContentStore.CommandLine

/-- What the program can be told to do. -/
inductive Command where
  /-- Store a file and print its fingerprint. -/
  | put (file : String)
  /-- Write a binary to a file, or print it. -/
  | get (fingerprint : String) (output : Option String)
  | length (fingerprint : String)
  /-- Delete a binary from the bucket. -/
  | remove (fingerprint : String)
  | list (asJson : Bool)
  | collect (marks : String) (delete : Bool)
deriving DecidableEq, Repr

/-- A command with what it is carried out on. -/
structure Invocation where
  settingsFile : String
  repository : String
  command : Command
deriving DecidableEq, Repr

/-- What a command line asks for. -/
inductive Demand where
  | help (text : String)
  /-- Nothing that makes sense. -/
  | misuse
  | run (invocation : Invocation)
deriving DecidableEq, Repr

/-! ## Grammars -/

def defaultSettingsFile : String := "binstore.toml"

def defaultRepository : String := "default"

def fileOperand : Value := ⟨"FILE", true⟩

def fingerprintOperand : Value := ⟨"FINGERPRINT", false⟩

def settingsSwitch : Switch :=
  ⟨some 'c', "config", some ⟨"CONFIG", true⟩, false,
    "Store configuration (TOML) [default: " ++ defaultSettingsFile ++ "]"⟩

def repositorySwitch : Switch :=
  ⟨some 'r', "repository", some ⟨"REPOSITORY", false⟩, false,
    "Repository name reported on binaries [default: " ++ defaultRepository ++ "]"⟩

/-- The switch that names the file to write. -/
def outputSwitch : Switch :=
  ⟨some 'o', "output", some ⟨"OUTPUT", true⟩, false, "Output file [default: stdout]"⟩

def jsonSwitch : Switch :=
  ⟨none, "json", none, false, ""⟩

def marksSwitch : Switch :=
  ⟨none, "marks", some ⟨"MARKS", true⟩, true, "File with one live fingerprint per line"⟩

def deleteSwitch : Switch :=
  ⟨none, "delete", none, false, "Delete unmarked binaries instead of only counting them"⟩

def commandGrammars : List Grammar :=
  [⟨"put", "Upload a file and print its fingerprint", [fileOperand], [], []⟩,
   ⟨"get", "Download a binary", [fingerprintOperand], [outputSwitch], []⟩,
   ⟨"length", "Print the stored length of a binary (0 when absent)", [fingerprintOperand], [], []⟩,
   ⟨"rm", "Delete a binary from the bucket", [fingerprintOperand], [], []⟩,
   ⟨"ls", "List the bucket", [], [jsonSwitch], []⟩,
   ⟨"gc", "Collect binaries not listed in a marks file", [], [marksSwitch, deleteSwitch], []⟩]

def programGrammar : Grammar :=
  ⟨"", "Content-addressed binary store on S3", [], [settingsSwitch, repositorySwitch],
    commandGrammars.map fun grammar => (grammar.name, grammar.about)⟩

def grammarOf? (name : String) : Option Grammar :=
  commandGrammars.find? fun grammar => grammar.name == name

/-! ## Reading -/

def Command.ofBindings? (name : String) (bindings : Bindings) : Option Command :=
  let has (switch : Switch) : Bool := (bindings.lookup switch.word).isSome
  match name with
  | "put" => (bindings.lookup fileOperand.name).map .put
  | "get" => (bindings.lookup fingerprintOperand.name).map fun fingerprint =>
    .get fingerprint (bindings.lookup outputSwitch.word)
  | "length" => (bindings.lookup fingerprintOperand.name).map .length
  | "rm" => (bindings.lookup fingerprintOperand.name).map .remove
  | "ls" => some (.list (has jsonSwitch))
  | "gc" => (bindings.lookup marksSwitch.word).map fun marks =>
    .collect marks (has deleteSwitch)
  | _ => none

def Invocation.ofBindings (bindings : Bindings) (command : Command) : Invocation :=
  ⟨(bindings.lookup settingsSwitch.word).getD defaultSettingsFile,
    (bindings.lookup repositorySwitch.word).getD defaultRepository, command⟩

namespace Demand

def ofHelp : List String → Demand
  | [] => .help programGrammar.help
  | [name] =>
    if name = helpWord then .help Grammar.helpOnHelp
    else
      match grammarOf? name with
      | some grammar => .help grammar.help
      | none => .misuse
  | _ => .misuse

/-- What a stop while reading the arguments of a grammar asks for. -/
def ofStop (grammar : Grammar) : Stop → Demand
  | .help => .help grammar.help
  | .misuse => .misuse

/-- What a command asks for.  What stands before the command is checked at the
end. -/
def ofCommand (before : Scan) (name : String) (arguments : List String) : Demand :=
  match grammarOf? name with
  | none => .misuse
  | some grammar =>
    match grammar.bindings arguments with
    | .error stop => ofStop grammar stop
    | .ok bindings =>
      match before.settle, Command.ofBindings? name bindings with
      | .ok settled, some command => .run (Invocation.ofBindings settled.bound command)
      | _, _ => .misuse

/-- What a command line asks for. -/
def ofArguments (arguments : List String) : Demand :=
  match programGrammar.scanFrom arguments programGrammar.start with
  | .error stop => ofStop programGrammar stop
  | .ok (_, none) => .misuse
  | .ok (before, some (name, rest)) =>
    if name = helpWord then ofHelp rest else ofCommand before name rest

end Demand

end ContentStore.CommandLine
