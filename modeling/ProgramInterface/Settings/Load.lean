import ProgramInterface.Settings.Read

/-!
# Loading settings

Settings come from the default values, a file and variables. A file that is missing or cannot be used
leaves the default values in place; a variable that is set, readable and in range replaces one
setting. What comes out is checked.
-/

namespace ProgramInterface

/-- What surrounds a run of the program: the home directories and the variables that replace settings.
An empty text stands for a variable that is not set. -/
structure Environment where
  home : Homes
  threshold : Text
  indent : Text
  level : Text

namespace Environment

/-- No variable is set. -/
def bare (home : Homes) : Environment := ⟨home, [], [], []⟩

/-- The name of the variable for the threshold. -/
def thresholdName : String := "ARCH_IDL_ERROR_THRESHOLD"

/-- The name of the variable for the indentation. -/
def indentName : String := "ARCH_IDL_INDENT"

/-- The name of the variable for the level of the log. -/
def levelName : String := "ARCH_IDL_LOG_LEVEL"

/-- The number that a variable gives, if it is set, readable and in range. -/
def number (name : String) (isInRange : Int → Bool) (raw : Text) : Logged (Option Int) :=
  if raw.isEmpty then pure none
  else
    match IntegerText.read 10 raw with
    | .error _ => do
      Logged.report .warning settingsPart ("Invalid " ++ name ++ Text.ofString ": " ++ raw) []
      return none
    | .ok value =>
      if isInRange value then pure (some value)
      else do
        Logged.report .warning settingsPart
          ("Ignoring " ++ name ++ Text.ofString "=" ++ Text.ofInt value ++ ": out of range") []
        return none

/-- The level that a variable gives, if it is set and a level. -/
def levelOf (raw : Text) : Logged (Option Text) :=
  if raw.isEmpty then pure none
  else if levelNames.contains raw.upper then pure (some raw.upper)
  else do
    Logged.report .warning settingsPart ("Invalid " ++ levelName ++ Text.ofString ": " ++ raw) []
    return none

/-- Settings with those replaced that variables give. -/
def apply (environment : Environment) (settings : Settings) : Logged Settings := do
  let threshold ← number thresholdName (0 ≤ ·) environment.threshold
  let indent ← number indentName isIndent environment.indent
  let level ← levelOf environment.level
  return {
    generation := { settings.generation with
      threshold := threshold.getD settings.generation.threshold }
    output := { settings.output with indent := indent.getD settings.output.indent }
    logging := { settings.logging with level := level.getD settings.logging.level } }

end Environment

/-- Why no settings come out: a file has a fault that is not forgiven, or what comes out is not
good. -/
inductive LoadFault where
  | unread (fault : ReadFault)
  | invalid (fault : SettingsFault)

/-- The wording of a fault. -/
def LoadFault.message : LoadFault → Text
  | unread fault => fault.message
  | invalid fault => fault.message

namespace Settings

/-- The directory of the settings file if no other is named. -/
def defaultDirectory (home : Path) : Path :=
  home ++ Path.ofText ".arch-idl"

/-- The settings file in a directory. -/
def fileIn (directory : Path) : Path :=
  directory ++ Path.ofText "config.yaml"

/-- The settings file if no other is named. -/
def defaultFile (home : Path) : Path :=
  fileIn (defaultDirectory home)

/-- The settings that the file at a path holds; the default settings, if there is no file or it has a
fault that is forgiven. -/
def ofFileOrDefault (reader : Reader) (home : Homes) (tree : FileTree) (path : Path) :
    Logged (Except ReadFault Settings) :=
  match tree.holds path with
  | .error fault => pure (.error (.file fault))
  | .ok false => pure (.ok Settings.default)
  | .ok true => do
    match ← ofFileWith reader home tree path with
    | .ok settings =>
      Logged.report .debug settingsPart ("Loaded config from " ++ path.text) []
      return .ok settings
    | .error fault =>
      if fault.isForgiven then
        Logged.report .warning settingsPart
          ("Failed to load config from " ++ path.text ++ Text.ofString ": " ++ fault.message) []
        return .ok Settings.default
      else return .error fault

/-- The settings from the file at a path, read in a given way, and variables. -/
def loadWith (reader : Reader) (environment : Environment) (tree : FileTree) (path : Path) :
    Logged (Except LoadFault Settings) := do
  match ← ofFileOrDefault reader environment.home tree path with
  | .error fault => return .error (.unread fault)
  | .ok settings =>
    return (← (← environment.apply settings).check).mapError .invalid

/-- The settings from the file at a path and variables. -/
def load : Environment → FileTree → Path → Logged (Except LoadFault Settings) :=
  loadWith yamlOf

end Settings

end ProgramInterface
