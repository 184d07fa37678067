import ProgramInterface.Path

/-!
# Settings

What can be set: which error codes are shown and how types are read, how and where descriptions are
written, and what is logged.
-/

namespace ProgramInterface

/-- What a description shows: the error codes above a threshold, and types taken apart or not. -/
structure GenerationSettings where
  threshold : Int
  structural : Bool
  deriving DecidableEq

/-- How a description is written, and the directory it is written to. -/
structure OutputSettings where
  indent : Int
  directory : Option Path
  deriving DecidableEq

/-- What is logged: the least level, by name, and the format. -/
structure LogSettings where
  level : Text
  json : Bool
  deriving DecidableEq

/-- All settings. -/
structure Settings where
  generation : GenerationSettings
  output : OutputSettings
  logging : LogSettings
  deriving DecidableEq

/-- The settings without a file or variables. -/
def Settings.default : Settings :=
  ⟨⟨500, false⟩, ⟨2, none⟩, ⟨"INFO", false⟩⟩

end ProgramInterface
