import ProgramInterface.Command.Line
import ProgramInterface.FileTree
import ProgramInterface.Settings.Check

/-!
# Commands and their usage

The commands of the program with their switches and arguments, the help on them, and the reports on
command lines that are not understood.
-/

namespace ProgramInterface

namespace Command

/-- The commands. -/
inductive Verb where
  | generate
  | initConfig
  | serve
  | summary
  | validate
  deriving DecidableEq

/-- What switches are for. -/
inductive Key where
  | config
  | verbose
  | output
  | outputDirectory
  | indent
  | force
  | help
  deriving DecidableEq

/-- All commands, in the order of their names. -/
def Verb.all : List Verb :=
  [generate, initConfig, serve, summary, validate]

/-- The name of a command. -/
def Verb.name : Verb → String
  | generate => "generate"
  | initConfig => "init-config"
  | serve => "serve"
  | summary => "summary"
  | validate => "validate"

/-- What a command does. -/
def Verb.purpose : Verb → String
  | generate => "Generate the IDL for SOURCE (use - for stdin)."
  | initConfig => "Write the effective configuration to the config file."
  | serve => "Run the MCP server over stdio."
  | summary => "Summarize the IDL for SOURCE (use - for stdin)."
  | validate => "Validate an IDL JSON document."

/-- The word for the argument of a command. -/
def Verb.argument? : Verb → Option String
  | generate => some "SOURCE"
  | summary => some "SOURCE"
  | validate => some "IDL_FILE"
  | initConfig => none
  | serve => none

/-- The word for the range of an indentation. -/
def indentRange : String :=
  "0<=x<=" ++ toString indentLimit

/-- The switch that asks for help. -/
def helpSwitch : Switch Key :=
  ⟨.help, ["--help"], none, "Show this message and exit."⟩

/-- The switches that stand in front of the command. -/
def commonSwitches : List (Switch Key) :=
  [⟨.config, ["--config"], some "FILE", "Config file (default: ~/.arch-idl/config.yaml)"⟩,
    ⟨.verbose, ["--verbose", "-v"], none, "Enable debug logging"⟩, helpSwitch]

/-- The switches of a command. -/
def Verb.switches : Verb → List (Switch Key)
  | generate =>
    [⟨.output, ["--output", "-o"], some "FILE", "Write the IDL to this file"⟩,
      ⟨.outputDirectory, ["--output-dir"], some "DIRECTORY",
        "Write the IDL to <dir>/<program name>.json"⟩,
      ⟨.indent, ["--indent"], some "INTEGER RANGE",
        "JSON indentation  [" ++ indentRange ++ "]"⟩, helpSwitch]
  | initConfig => [⟨.force, ["--force"], none, "Overwrite an existing config file"⟩, helpSwitch]
  | _ => [helpSwitch]

/-- The command with a name. -/
def Verb.ofName? (name : Text) : Option Verb :=
  all.find? fun verb => Text.ofString verb.name = name

/-! ## Help -/

/-- The name that the program is run by. -/
def invokedAs : String := "main"

/-- The words of a command line up to the command. -/
def commandPath : Option Verb → String
  | none => invokedAs
  | some verb => invokedAs ++ " " ++ verb.name

/-- The line that shows how the program, or a command, is used. -/
def usageLine (verb : Option Verb) : String :=
  "Usage: " ++ commandPath verb ++ " [OPTIONS]" ++
    match verb with
    | none => " COMMAND [ARGS]..."
    | some verb => verb.argument?.elim "" (" " ++ ·)

/-- What the program does. -/
def purpose : String :=
  "arch-idl - derive an Interface Description from on-chain Rust programs."

/-- The names of a switch, short ones first, and the word for its value. -/
def Switch.title (switch : Switch Key) : String :=
  let (long, short) := switch.names.partition fun name => isLong (Text.ofString name)
  ", ".intercalate (short ++ long) ++ switch.value.elim "" (" " ++ ·)

/-- Lines with two columns. -/
def table (rows : List (String × String)) : String :=
  let width := rows.foldl (fun width row => max width row.1.length) 0
  String.join <| rows.map fun (title, text) =>
    "  " ++ title ++ String.ofList (List.replicate (width - title.length) ' ') ++ "  " ++ text ++ "\n"

/-- The help on the program or on a command. -/
def help (verb : Option Verb) : String :=
  let switches := verb.elim commonSwitches Verb.switches
  let options := "Options:\n" ++ table (switches.map fun switch => (switch.title, switch.help))
  let commands :=
    match verb with
    | none => "\nCommands:\n" ++ table (Verb.all.map fun verb => (verb.name, verb.purpose))
    | some _ => ""
  usageLine verb ++ "\n\n  " ++ verb.elim purpose Verb.purpose ++ "\n\n" ++ options ++ commands

/-! ## Faults of usage -/

/-- Why a command line is not understood. -/
inductive UsageFault where
  | line (fault : LineFault)
  | noCommand
  | unknownCommand (name : Text) (similar : List Text)
  | badValue (place : Text) (detail : Text)
  | missingArgument (name : String)
  | surplus (arguments : List Text)

/-- Names in quotes, as what may have been meant. -/
def suggestion (similar : List Text) : Text :=
  let quoted := (similar.map Text.quoted).mergeSort Text.precedes
  match quoted with
  | [] => []
  | [name] => " Did you mean " ++ name ++ "?"
  | names => " (Did you mean one of: " ++ Text.joinWith ", " names ++ "?)"

/-- The wording of a fault. -/
def UsageFault.message : UsageFault → Text
  | line (.unknown name similar) =>
    "No such option " ++ name.quoted ++ Text.ofString "." ++ suggestion similar
  | line (.needsValue name) => "Option " ++ name.quoted ++ " requires an argument."
  | line (.takesNoValue name) => "Option " ++ name.quoted ++ " does not take a value."
  | noCommand => "Missing command."
  | unknownCommand name similar =>
    "No such command " ++ name.quoted ++ Text.ofString "." ++ suggestion similar
  | badValue place detail => "Invalid value for " ++ place ++ Text.ofString ": " ++ detail
  | missingArgument name => "Missing argument '" ++ name ++ "'."
  | surplus arguments =>
    (if arguments.length = 1 then "Got unexpected extra argument ("
      else "Got unexpected extra arguments (") ++ Text.joinWith " " arguments ++ ")"

/-- Whether the usage is shown with a fault. -/
def UsageFault.showsUsage : UsageFault → Bool
  | line (.needsValue _) => false
  | line (.takesNoValue _) => false
  | _ => true

/-- The report on a fault of the program or of a command. -/
def UsageFault.report (verb : Option Verb) (fault : UsageFault) : Text :=
  let usage : Text :=
    if fault.showsUsage then
      usageLine verb ++ "\nTry '" ++ commandPath verb ++ " --help' for help.\n\n"
    else []
  usage ++ Text.ofString "Error: " ++ fault.message ++ "\n"

/-- The names of a switch in the wording of a fault. -/
def Switch.place (switch : Switch Key) : Text :=
  " / ".intercalate (switch.names.map fun name => "'" ++ name ++ "'")

end Command

end ProgramInterface
