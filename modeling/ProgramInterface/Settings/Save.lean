import ProgramInterface.FileTree
import ProgramInterface.Settings.Check
import ProgramInterface.Yaml.Writer

/-!
# Saving settings

Settings are written as a YAML mapping with a section for each kind of setting, so that loading the
file gives them back.
-/

namespace ProgramInterface

/-- Why settings are not saved: something is wrong with the file, or the threshold has too many
digits. -/
inductive SaveFault where
  | file (fault : FileTree.Fault)
  | unwritable

/-- The wording of a fault. -/
def SaveFault.message : SaveFault → Text
  | file fault => fault.message
  | unwritable => IntegerText.writeFaultMessage

namespace Settings

/-- The YAML form of settings. -/
def toYaml (settings : Settings) : List (Text × Yaml.Output) :=
  [("generation", .mapping
      [("error_code_threshold", .int settings.generation.threshold),
        ("structural_generics", .bool settings.generation.structural)]),
    ("output", .mapping
      [("indent", .int settings.output.indent),
        ("directory", settings.output.directory.elim .null fun path => .text path.text)]),
    ("logging", .mapping
      [("level", .text settings.logging.level), ("json_format", .bool settings.logging.json)])]

/-- Whether every number in settings has few enough digits to be written. -/
def isWritable (settings : Settings) : Bool :=
  IntegerText.fits settings.generation.threshold && IntegerText.fits settings.output.indent

/-- Writes settings to the file at a path. The directories above it are made first, and the file is
emptied before it is known whether the settings can be written. -/
def saveFile (path : Path) (settings : Settings) : ExceptT SaveFault (StateM FileTree) Unit := do
  ExceptT.adapt .file (FileAction.makeDirectory path.parent)
  if settings.isWritable then
    ExceptT.adapt .file (FileAction.write path (Yaml.Output.write settings.toYaml))
  else
    let _ ← ExceptT.adapt SaveFault.file (FileAction.clear path)
    throw .unwritable

/-- Writes settings to the file at a path and reports it; gives the outcome and the tree
afterwards. -/
def save (tree : FileTree) (path : Path) (settings : Settings) :
    Logged (Except SaveFault Unit) × FileTree :=
  let (outcome, after) := (saveFile path settings).run.run tree
  match outcome with
  | .error fault => (pure (.error fault), after)
  | .ok () =>
    (do
      Logged.report .info settingsPart ("Saved config to " ++ path.text) []
      return .ok (), after)

end Settings

end ProgramInterface
