import ProgramInterface.Command.Run
import Std.Time.DateTime.Timestamp

/-!
# The program

Gathers what a run works on, runs it, and carries out what it changed: the outer layer, in which
nothing is decided.
-/

namespace ProgramInterface

namespace Program

/-- What stands at a path of the system. -/
def look (path : String) : IO (Option Item) := do
  try
    let content ← IO.FS.readBinFile path
    return some (.file content.toList)
  catch failure =>
    match failure with
    | .inappropriateType _ _ _ => return some .directory
    | _ => return none

/-- The text of a place as an absolute path. -/
def placeText (place : Place) : String :=
  ((Path.text ⟨.absolute, place⟩).toString?).getD ""

/-- The tree with what stands at a place, given by its names, the last one first, and at those above
it. -/
def gather : List Text → FileTree → IO FileTree
  | [], tree => return tree
  | name :: above, tree => do
    let tree ← gather above tree
    let place := (name :: above).reverse
    match ← look (placeText place) with
    | some item => return tree.put place item
    | none => return tree

/-- The place that a path leads to if every name in it is that of a directory. -/
def placeOf (current : Place) (path : Path) : Place :=
  path.names.foldl
    (fun place name => if name = Text.ofString ".." then place.dropLast else place ++ [name])
    (if path.root = .relative then current else [])

/-- The texts in a word of a command line that may be paths. -/
def pathsIn (word : Text) : List Text :=
  let attached := (Command.splitValue word).2.toList
  if word.head? = some (.scalar '-') then attached ++ [word.drop 2] else [word]

/-- What stands at the paths that a run may look at. -/
def gatherAll (current : Place) (paths : List Path) : IO FileTree :=
  paths.foldlM (fun tree path => gather (placeOf current path).reverse tree) (.empty current)

/-- Makes an item of a tree that was not there before. -/
def carryOut (before : FileTree) (place : Place) (item : Item) : IO Unit := do
  match item, before.item? place with
  | .directory, some .directory => return
  | .directory, _ => IO.FS.createDirAll (placeText place)
  | .file content, some (.file known) =>
    if known != content then IO.FS.writeBinFile (placeText place) ⟨content.toArray⟩
  | .file content, _ => IO.FS.writeBinFile (placeText place) ⟨content.toArray⟩

/-- The value of a variable, empty if it is not set. -/
def variableText (name : String) : IO Text := do
  return Text.ofString ((← IO.getEnv name).getD "")

/-- What the table of users enters for the home directory of a user. -/
def homeIn? (table : Text) (user : Text) : Option Text :=
  (table.splitOn (.scalar '\n')).findSome? fun line =>
    match line.splitOn (.scalar ':') with
    | name :: _ :: _ :: _ :: _ :: directory :: _ => if name = user then some directory else none
    | _ => none

/-- What surrounds the run. -/
def environment : IO Environment := do
  let table ← tryCatch (IO.FS.readFile "/etc/passwd") fun _ => return ""
  let homes : Homes := ⟨Path.ofText (← variableText "HOME"), homeIn? (Text.ofString table)⟩
  return ⟨homes, ← variableText Environment.thresholdName, ← variableText Environment.indentName,
    ← variableText Environment.levelName⟩

/-- Writes a text to a stream. -/
def writeTo (stream : IO.FS.Stream) (t : Text) : IO Unit := do
  stream.putStr (String.ofList (t.filterMap CodePoint.char?))
  stream.flush

end Program

end ProgramInterface

open ProgramInterface in
/-- Runs the program with the words of a command line. -/
def main (words : List String) : IO UInt32 := do
  let environment ← Program.environment
  let words := words.map Text.ofString
  let named := (words.flatMap Program.pathsIn).map Path.ofText
  let current := (Path.ofText (Text.ofString (← IO.currentDir).toString)).names
  let before ← Program.gatherAll current (Settings.defaultFile environment.home :: named)
  let input ←
    if words.contains (Text.ofString "-") then (← IO.getStdin).readBinToEnd else pure .empty
  let time := (← Std.Time.Timestamp.now).toSecondsSinceUnixEpoch.val
  let outcome := Command.run ⟨environment, input.toList, time⟩ before words
  for (place, item) in outcome.tree.items do
    Program.carryOut before place item
  Program.writeTo (← IO.getStdout) outcome.output
  Program.writeTo (← IO.getStderr) outcome.errors
  return UInt32.ofNat outcome.code
