import ProgramInterface.Display
import ProgramInterface.Log.Entry
import ProgramInterface.Number.IntegerText
import ProgramInterface.Settings.Basic
import ProgramInterface.Text.Case

/-!
# Checking settings

Settings are good if the threshold of error codes is not negative, the indentation lies between zero
and eight, and the level of the log is one of four names in any case. Checking turns the name of the
level into upper case.
-/

namespace ProgramInterface

/-- Why settings are not good; `unwritable` stands for a number that is out of range and too long to
be shown. -/
inductive SettingsFault where
  | threshold (value : Int)
  | indent (value : Int)
  | level (name : Text)
  | unwritable
  deriving DecidableEq

/-- The greatest indentation. -/
def indentLimit : Int := 8

/-- The names of the levels that the log can be set to. -/
def levelNames : List Text :=
  [Log.Level.debug, .info, .warning, .error].map fun level => Text.ofString level.name

/-- The wording of a fault. -/
def SettingsFault.message : SettingsFault → Text
  | threshold value => "error_code_threshold must be >= 0, got " ++ Text.ofInt value
  | indent value =>
    "indent must be between 0 and " ++ Text.ofInt indentLimit ++ Text.ofString ", got " ++
      Text.ofInt value
  | level name =>
    "Invalid log level '" ++ name ++ Text.ofString "'. Must be one of: " ++
      (Display.list (levelNames.map .text)).write
  | unwritable => IntegerText.writeFaultMessage

/-- The part of the program that reports on settings. -/
def settingsPart : String := "config"

/-- The fault of a number that is out of range. -/
def SettingsFault.ofNumber (fault : Int → SettingsFault) (value : Int) : SettingsFault :=
  if IntegerText.fits value then fault value else unwritable

/-- Checks the settings of descriptions; that types are taken apart is reported. -/
def GenerationSettings.check (settings : GenerationSettings) : Logged (Except SettingsFault Unit) :=
  if settings.threshold < 0 then
    pure (.error (.ofNumber .threshold settings.threshold))
  else do
    if settings.structural then
      Logged.report .info settingsPart
        "Structural generics enabled: Option and tuple types will be decomposed" []
    return .ok ()

/-- Whether an indentation is in range. -/
def isIndent (value : Int) : Bool :=
  0 ≤ value && value ≤ indentLimit

/-- Checks the settings of output. -/
def OutputSettings.check (settings : OutputSettings) : Except SettingsFault Unit :=
  if isIndent settings.indent then .ok () else .error (.ofNumber .indent settings.indent)

/-- The settings of the log with the level in upper case, if it is a level. -/
def LogSettings.check (settings : LogSettings) : Except SettingsFault LogSettings :=
  if levelNames.contains settings.level.upper then
    .ok { settings with level := settings.level.upper }
  else .error (.level settings.level)

/-- Good settings with the level in upper case, or the first fault. -/
def Settings.check (settings : Settings) : Logged (Except SettingsFault Settings) := do
  match ← settings.generation.check with
  | .error fault => return .error fault
  | .ok () =>
    return do
      settings.output.check
      return { settings with logging := ← settings.logging.check }

end ProgramInterface
