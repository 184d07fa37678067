import ProgramInterface.Catalogue.Errors
import ProgramInterface.Catalogue.Instructions
import ProgramInterface.Catalogue.Types
import ProgramInterface.Grammar.SourceFile
import ProgramInterface.Log.Entry
import ProgramInterface.Settings.Basic

/-!
# Generating descriptions

The description of a program from its source. It exists if the source is UTF-8 and every error code
can be written.
-/

namespace ProgramInterface

/-- Why a source has no description. -/
inductive GenerationFault where
  | source (fault : SourceFault)
  | codeTooLong

/-- The wording of a fault of generation. -/
def GenerationFault.message : GenerationFault → String
  | source fault => "Failed to parse program source: " ++ fault.message
  | codeTooLong => IntegerText.writeFaultMessage

/-- The mode in which the settings ask for types to be read. -/
def GenerationSettings.mode (settings : GenerationSettings) : FieldMode :=
  if settings.structural then .structural else .field

/-- The description of a program from its syntax tree, if every error code can be written. -/
def describe? (settings : GenerationSettings) (root : Node) : Option Document :=
  (errorEntries? settings.threshold root).map fun errors =>
    { version := formatVersion
      name := programName root
      instructions := instructions settings.mode root
      accounts := accountLayouts root
      types := typeEntries settings.mode root
      errors }

/-- The description of a program. -/
def generate (settings : GenerationSettings) (source : Source) :
    Except GenerationFault Document :=
  match source.parse with
  | .error fault => .error (.source fault)
  | .ok root =>
    match describe? settings root with
    | none => .error .codeTooLong
    | some document => .ok document

/-- The syntax tree of a source, with a warning if it holds errors. -/
def parseLogged (source : Source) : Logged (Except SourceFault Node) :=
  match source.parse with
  | .error fault => pure (.error fault)
  | .ok root => do
    if root.hasErrors then
      Logged.report .warning "parser"
        "Source contains syntax errors; affected items will be skipped" []
    return .ok root

/-- The description of a program, with a report of its making. -/
def generateLogged (settings : GenerationSettings) (source : Source) :
    Logged (Except GenerationFault Document) := do
  match ← parseLogged source with
  | .error fault =>
    Logged.report .error "generator" ("IDL generation failed: " ++ Text.ofString fault.message) []
    return .error (.source fault)
  | .ok root =>
    if (findFunction? root entryName).isNone then
      Logged.report .debug "extractor"
        ("No " ++ entryName ++ Text.ofString " function; no instructions extracted") []
    match describe? settings root with
    | none => return .error .codeTooLong
    | some document =>
      Logged.report .debug "generator" ("Generated IDL for " ++ document.name)
        [(.program, .text document.name), (.catalogs, document.summary.toJson)]
      return .ok document

theorem value_generateLogged (settings : GenerationSettings) (source : Source) :
    (generateLogged settings source).value = generate settings source := by
  unfold generateLogged generate parseLogged
  cases source.parse with
  | error fault => rfl
  | ok root =>
    cases hdescribe : describe? settings root <;>
      cases hentry : (findFunction? root entryName).isNone <;>
        cases herrors : root.hasErrors <;>
          simp [bind, Logged.bind, pure, Logged.pure, Logged.report, hdescribe, hentry, herrors]

end ProgramInterface
