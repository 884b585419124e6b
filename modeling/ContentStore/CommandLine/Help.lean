import ContentStore.CommandLine.Grammar

/-!
Contract: the help on a command.

Owns: `Grammar.help`, which says what a command is about, how it is used, and
what each operand, switch and further command is, in aligned columns.
-/

namespace ContentStore.CommandLine

def Value.mark (value : Value) : String :=
  "<" ++ value.name ++ ">"

def Switch.mark (switch : Switch) : String :=
  let letter :=
    match switch.letter with
    | some letter => "-" ++ String.singleton letter ++ ", "
    | none => "    "
  letter ++ "--" ++ switch.word ++
    (switch.value.map fun value => " " ++ value.mark).getD ""

/-- A switch that is required, as the line on use writes it. -/
def Switch.use (switch : Switch) : String :=
  " --" ++ switch.word ++ (switch.value.map fun value => " " ++ value.mark).getD ""

namespace Grammar

def programName : String := "binstore"

def useLine (grammar : Grammar) : String :=
  let optional := grammar.switches.any fun switch => !switch.isRequired
  "Usage: " ++ programName ++ (if grammar.name = "" then "" else " " ++ grammar.name) ++
    (if optional then " [OPTIONS]" else "") ++
    String.join ((grammar.switches.filter Switch.isRequired).map Switch.use) ++
    String.join (grammar.operands.map fun operand => " " ++ operand.mark) ++
    (if grammar.commands.isEmpty then "" else " <COMMAND>")

def rows (entries : List (String × String)) : String :=
  let width := (entries.map fun entry => entry.1.length).foldl max 0
  String.join (entries.map fun (mark, about) =>
    "  " ++ mark ++ String.ofList (List.replicate (width - mark.length + 2) ' ') ++ about ++ "\n")

def chapter (title : String) (entries : List (String × String)) : String :=
  if entries.isEmpty then "" else "\n" ++ title ++ ":\n" ++ rows entries

def helpAbout : String := "Print this message or the help of the given subcommand(s)"

/-- The commands that may follow, with the one that gives help. -/
def allCommands (grammar : Grammar) : List (String × String) :=
  if grammar.commands.isEmpty then [] else grammar.commands ++ [(helpWord, helpAbout)]

def help (grammar : Grammar) : String :=
  grammar.about ++ "\n\n" ++ grammar.useLine ++ "\n" ++
    chapter "Commands" grammar.allCommands ++
    chapter "Arguments" (grammar.operands.map fun operand => (operand.mark, "")) ++
    chapter "Options" (grammar.allSwitches.map fun switch => (switch.mark, switch.about))

def helpOnHelp : String :=
  helpAbout ++ "\n\nUsage: " ++ programName ++ " " ++ helpWord ++ " [COMMAND]...\n" ++
    chapter "Arguments" [("[COMMAND]...", "Print help for the subcommand(s)")]

end Grammar

end ContentStore.CommandLine
