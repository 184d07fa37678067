import ProgramInterface.Generate
import ProgramInterface.Schema.Document
import ProgramInterface.Settings.Load

/-!
# Tools

The three tools that the program offers to callers: they generate, check and summarise descriptions.
A tool answers with a text in every case but two, a settings file with a fault that is not forgiven
and an error code that is too long to be written.
-/

namespace ProgramInterface

/-- The tools. -/
inductive Tool where
  | generate
  | validate
  | summary
  deriving DecidableEq

namespace Tool

/-- All tools, in the order in which they are offered. -/
def all : List Tool :=
  [generate, validate, summary]

/-- The name of a tool. -/
def name : Tool → String
  | generate => "arch_generate_idl"
  | validate => "arch_validate_idl"
  | summary => "arch_idl_summary"

/-- What a tool does, in words. -/
def description : Tool → String
  | generate =>
    "Generate the IDL (instructions, accounts, types, errors) of an on-chain Rust program " ++
      "from its source."
  | validate => "Check that an IDL JSON document is well formed."
  | summary => "Summarize what the IDL of a Rust program would contain."

/-- The argument of a tool: its name, what it may be, and what it is. -/
def argument : Tool → String × Json.Value × String
  | validate =>
    ("idl", .array [.ofString "object", .ofString "string"], "IDL document, as an object or JSON text")
  | _ => ("source", .ofString "string", "Rust source of the program (a single file)")

/-- The form of the arguments of a tool. -/
def inputForm (tool : Tool) : Json.Value :=
  let (name, kind, description) := tool.argument
  .record [("type", .ofString "object"),
    ("properties", .record
      [(name, .record [("type", kind), ("description", .ofString description)])]),
    ("required", .array [.ofString name])]

/-- What a tool answers. -/
inductive Answer where
  | rejected (model : String) (faults : List Schema.Fault)
  | badSettings (fault : SettingsFault)
  | noDescription (fault : SourceFault)
  | description (text : Text)
  | valid (name : Text)
  | outline (document : Document)
  | unknownTool (name : Text)

/-- Why a tool does not answer. -/
inductive Failure where
  | settings (fault : LoadFault)
  | unwritable

/-- An argument of an instruction in an outline. -/
def outlineArgument (field : Field) : Text :=
  field.name ++ Text.ofString ": " ++ field.type.toJson.display.plain

/-- The line for an instruction in an outline. -/
def outlineInstruction (instruction : Instruction) : Text :=
  "- \x60" ++ instruction.name ++ Text.ofString "(" ++
    Text.joinWith ", " (instruction.arguments.map outlineArgument) ++ Text.ofString ")\x60"

/-- A section of an outline, which is left out if it has no lines. -/
def outlineSection (title : String) (lines : List Text) : List Text :=
  if lines.isEmpty then [] else Text.ofString ("\n## " ++ title) :: lines

/-- The outline of a description. -/
def outlineText (document : Document) : Text :=
  let counts := document.summary.entries.map fun (name, count) =>
    Text.ofString ("- **" ++ name ++ "**: " ++ toString count)
  let codes := document.errors.map fun entry =>
    "- " ++ Text.ofInt entry.code ++ Text.ofString ": " ++ entry.name
  Text.joinWith "\n" <|
    ("# " ++ document.name ++ Text.ofString " (IDL v" ++ document.version ++ ")") :: [] :: counts ++
      outlineSection "Instructions" (document.instructions.map outlineInstruction) ++
      outlineSection "Errors" codes

/-- The text of an answer; of the report on faults it is the first line. -/
def Answer.text : Answer → Text
  | rejected model faults => "Validation error: " ++ Schema.countMessage model faults
  | badSettings fault => "Configuration error: " ++ fault.message
  | noDescription fault => "Generation error: " ++ (GenerationFault.source fault).message
  | description text => text
  | valid name => "Valid IDL: " ++ name
  | outline document => outlineText document
  | unknownTool name => "Unknown tool: " ++ name

/-- The part of the program that reports on tools. -/
def part : String := "server"

/-- The indentation of the descriptions that tools answer with. -/
def indent : Int := 2

/-- The description that a tool needs, made with the settings that are loaded for it, or the answer
that takes its place. -/
def describe (environment : Environment) (tree : FileTree) (tool : Tool) (source : Source) :
    Logged (Except Failure (Except Answer Document)) := do
  match ← Settings.load environment tree (Settings.defaultFile environment.home) with
  | .error (.invalid .unwritable) => return .error (.settings (.invalid .unwritable))
  | .error (.invalid fault) =>
    Logged.report .error part ("Invalid configuration: " ++ fault.message)
      [(.tool, .ofString tool.name)]
    return .ok (.error (.badSettings fault))
  | .error fault => return .error (.settings fault)
  | .ok settings =>
    match ← generateLogged settings.generation source with
    | .error (.source fault) => return .ok (.error (.noDescription fault))
    | .error .codeTooLong => return .error .unwritable
    | .ok document => return .ok (.ok document)

/-- The answer to a request for a description. -/
def answerGenerate (environment : Environment) (tree : FileTree) (source : Source) :
    Logged (Except Failure Answer) := do
  match ← describe environment tree generate source with
  | .error failure => return .error failure
  | .ok (.error answer) => return .ok answer
  | .ok (.ok document) =>
    match document.encode? (some indent) with
    | some text => return .ok (.description text)
    | none => return .error .unwritable

/-- The answer to a request for an outline. -/
def answerSummary (environment : Environment) (tree : FileTree) (source : Source) :
    Logged (Except Failure Answer) := do
  match ← describe environment tree summary source with
  | .error failure => return .error failure
  | .ok (.error answer) => return .ok answer
  | .ok (.ok document) => return .ok (.outline document)

/-- The normal form of a description that comes as text or as a value. -/
def checkAny : Json.Value → Schema.Checked
  | .text t => Schema.checkDocumentText t
  | value => Schema.checkObject value

/-- The answer to a request to check a description. -/
def answerValidate (description : Json.Value) : Logged Answer := do
  match checkAny description with
  | .ok model => return .valid (((model.member? "name").bind Json.Value.text?).getD [])
  | .error faults =>
    Logged.report .info part
      (Text.ofString
        ("Rejected IDL document: " ++ toString faults.length ++ " validation errors"))
      [(.tool, .ofString validate.name)]
    return .rejected Schema.documentModel faults

/-- An argument of a request; one that is left out counts as an empty text. -/
def argumentOf (name : String) (arguments : List (Text × Json.Value)) : Json.Value :=
  (Json.Value.lookup? name arguments).getD (.text [])

/-- The source among the arguments of a request. -/
def sourceOf (arguments : List (Text × Json.Value)) : Except Answer Source :=
  match Schema.checkSource (argumentOf "source" arguments) with
  | .ok (.text t) => .ok (.text t)
  | .ok _ => .ok (.text [])
  | .error faults => .error (.rejected "GenerateIdlInput" faults)

/-- The tool with a given name. -/
def ofName? (name : Text) : Option Tool :=
  all.find? fun tool => Text.ofString tool.name = name

/-- The answer to a request. -/
def call (environment : Environment) (tree : FileTree) (name : Text)
    (arguments : List (Text × Json.Value)) : Logged (Except Failure Answer) :=
  match ofName? name with
  | none => pure (.ok (.unknownTool name))
  | some generate =>
    match sourceOf arguments with
    | .error answer => pure (.ok answer)
    | .ok source => answerGenerate environment tree source
  | some summary =>
    match sourceOf arguments with
    | .error answer => pure (.ok answer)
    | .ok source => answerSummary environment tree source
  | some validate =>
    match Schema.checkDescription (argumentOf "idl" arguments) with
    | .error faults => pure (.ok (.rejected "ValidateIdlInput" faults))
    | .ok description => do return .ok (← answerValidate description)

end Tool

end ProgramInterface
