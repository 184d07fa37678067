import ProgramInterface.Command.Usage
import ProgramInterface.Log.Router
import ProgramInterface.Publish
import ProgramInterface.Schema.Document
import ProgramInterface.Settings.Load
import ProgramInterface.Settings.Save
import ProgramInterface.Generate

/-!
# Running commands

A run of the program reads a command line, loads settings, and carries out one command. It ends with
an exit code, with what was written to the two outputs, and with the files as they are then.
-/

namespace ProgramInterface

namespace Command

/-- A failure that no command expects; it ends the run. -/
inductive Failure where
  | settings (fault : LoadFault)
  | file (fault : FileTree.Fault)
  | undecodable (fault : Utf8.DecodeFault)
  | publishing (fault : PublishFault)
  | saving (fault : SaveFault)
  | unwritable

/-- How a run ends before its last step. -/
inductive Stop where
  | exit (code : Nat)
  | failed (failure : Failure)

/-- What a run works on: the files, the routing of records, and what was written so far. -/
structure Console where
  tree : FileTree
  router : Log.Router
  output : Text
  errors : Text

/-- What stays the same during a run: its surroundings, the bytes on its input, and the time of its
records. -/
structure Context where
  environment : Environment
  input : List UInt8
  time : Int

/-- A part of a run. -/
abbrev Session := ReaderT Context (ExceptT Stop (StateM Console))

namespace Session

/-- Writes a text and a line end to the output. -/
def print (t : Text) : Session Unit :=
  modify fun console => { console with output := console.output ++ t ++ "\n" }

/-- Writes a text to the error output. -/
def complain (t : Text) : Session Unit :=
  modify fun console => { console with errors := console.errors ++ t }

/-- Ends the run. -/
def exit {α : Type} (code : Nat) : Session α :=
  throw (.exit code)

/-- Ends the run with a failure. -/
def fail {α : Type} (failure : Failure) : Session α :=
  throw (.failed failure)

/-- Ends the run with a report on how the program is used. -/
def misuse {α : Type} (verb : Option Verb) (fault : UsageFault) : Session α := do
  complain (fault.report verb)
  exit 2

/-- Ends the run with help. -/
def showHelp {α : Type} (verb : Option Verb) : Session α := do
  modify fun console => { console with output := console.output ++ Text.ofString (help verb) }
  exit 0

/-- Writes what was reported to the error output. -/
def emit {α : Type} (logged : Logged α) : Session α := do
  let time := (← read).time
  for entry in logged.entries do
    complain ((← get).router.report (entry.at time))
  return logged.value

/-- Changes files. -/
def changeFiles {ε α : Type} (toFailure : ε → Failure) (action : ExceptT ε (StateM FileTree) α) :
    Session α := do
  let console ← get
  let (outcome, tree) := action.run.run console.tree
  set { console with tree }
  match outcome with
  | .ok a => return a
  | .error fault => fail (toFailure fault)

end Session

open Session

/-! ## Values of switches and arguments -/

/-- What the system answers about a path that is given as a word: an empty word names nothing. -/
def findNamed (tree : FileTree) (word : Text) : Except FileTree.Fault Item :=
  if word.isEmpty then .error (.refused .missing word) else tree.find (Path.ofText word)

/-- Ends the run unless a word is a path that may be used for what a switch asks. -/
def checkPath (verb : Option Verb) (switch : Switch Key) (word : Text) : Session Unit := do
  let refuse (kind : String) (state : String) : Session Unit :=
    misuse verb (.badValue switch.place
      (Text.ofString (kind ++ " ") ++ word.quoted ++ Text.ofString (" is a " ++ state ++ ".")))
  match switch.key, findNamed (← get).tree word with
  | .outputDirectory, .ok (.file _) => refuse "Directory" "file"
  | .outputDirectory, .ok .directory => return
  | _, .ok .directory => refuse "File" "directory"
  | _, .ok (.file _) => return
  | _, .error (.refused _ _) => return
  | _, .error fault => fail (.file fault)

/-- The indentation that a word is. -/
def indentOf (word : Text) : Except Text Int :=
  match IntegerText.read 10 word with
  | .error _ => .error (word.quoted ++ Text.ofString " is not a valid integer range.")
  | .ok value =>
    if isIndent value then .ok value
    else .error (Text.ofInt value ++ " is not in the range " ++ indentRange ++ ".")

/-- Ends the run unless the value of a switch may be used. -/
def checkSwitch (verb : Option Verb) (switch : Switch Key) (word : Text) : Session Unit :=
  match switch.key with
  | .config | .output | .outputDirectory => checkPath verb switch word
  | .indent =>
    match indentOf word with
    | .ok _ => return
    | .error detail => misuse verb (.badValue switch.place detail)
  | _ => return

/-- Ends the run unless the values of all switches of a line may be used; help comes before that. -/
def checkLine (verb : Option Verb) (switches : List (Switch Key)) (line : Line Key) : Session Unit := do
  if line.has .help then showHelp verb
  for key in line.keys do
    match switches.find? (·.key = key), line.value? key with
    | some switch, some word => checkSwitch verb switch word
    | _, _ => pure ()

/-- The line that some words are, its switches checked. -/
def readLine (verb : Option Verb) (switches : List (Switch Key)) (words : List Text) :
    Session (Line Key) := do
  match readWords switches verb.isSome words with
  | .error fault => misuse verb (.line fault)
  | .ok line =>
    checkLine verb switches line
    return line

/-- The content of the file that an argument names; a stroke names the input. -/
def openFile (verb : Verb) (place : String) (word : Text) : Session (List UInt8) := do
  if word = Text.ofString "-" then return (← read).input
  match findNamed (← get).tree word with
  | .ok (.file content) => return content
  | .ok .directory => refuse FileTree.Cause.isDirectory
  | .error (.refused cause _) => refuse cause
  | .error fault => fail (.file fault)
where
  /-- Ends the run with the wording of a refusal. -/
  refuse {α : Type} (cause : FileTree.Cause) : Session α :=
    misuse (some verb) (.badValue ("'" ++ place ++ "'")
      (Text.ofString "'" ++ word ++ Text.ofString ("': " ++ cause.message)))

/-- The line of a command and the content of the file that it is about. -/
def readCommand (verb : Verb) (words : List Text) : Session (Line Key × List UInt8) := do
  let line ← readLine (some verb) verb.switches words
  let (content, surplus) ←
    match verb.argument?, line.arguments with
    | none, words => pure ([], words)
    | some place, [] => misuse (some verb) (.missingArgument place)
    | some place, word :: rest => do pure (← openFile verb place word, rest)
  if !surplus.isEmpty then misuse (some verb) (.surplus surplus)
  return (line, content)

/-! ## Commands -/

/-- The description of a source; without one the run ends. -/
def describe (settings : Settings) (source : List UInt8) : Session Document := do
  match ← emit (generateLogged settings.generation (.bytes source)) with
  | .ok document => return document
  | .error .codeTooLong => fail .unwritable
  | .error fault => do
    complain ("Error: " ++ fault.message ++ "\n")
    exit 1

/-- Tells where a description was written. -/
def tellWritten (path : Path) : Session Unit :=
  complain ("Wrote IDL to " ++ path.text ++ "\n")

/-- Writes the description of a source to a file, to a directory, or to the output. -/
def runGenerate (settings : Settings) (words : List Text) : Session Unit := do
  let (line, source) ← readCommand .generate words
  let indent := ((line.value? .indent).bind fun word => (indentOf word).toOption).getD
    settings.output.indent
  let directory := ((line.value? .outputDirectory).map Path.ofText).or settings.output.directory
  let document ← describe settings source
  match document.fileText? indent with
  | none => fail .unwritable
  | some text =>
    match (line.value? .output).map Path.ofText, directory with
    | some path, _ => do
      changeFiles .file do
        FileAction.makeDirectory path.parent
        FileAction.write path text
      tellWritten path
    | none, some directory => do
      let console ← get
      let (result, tree) := document.publish console.tree directory indent
      set { console with tree }
      match ← emit result with
      | .ok path => tellWritten path
      | .error fault => fail (.publishing fault)
    | none, none =>
      modify fun console => { console with output := console.output ++ text }

/-- Checks a description. -/
def runValidate (words : List Text) : Session Unit := do
  let (_, content) ← readCommand .validate words
  match Utf8.decode content with
  | .error fault => fail (.undecodable fault)
  | .ok text =>
    match Schema.checkDocumentText (Text.ofChars (Settings.plainLines text.toList)) with
    | .error faults => do
      complain ("✗ Invalid IDL: " ++ Schema.countMessage Schema.documentModel faults)
      exit 1
    | .ok model =>
      let textOf (name : String) : Text :=
        ((model.member? name).bind Json.Value.text?).getD []
      let count (name : String) : Text :=
        Text.ofNat ((((model.member? name).bind Json.Value.items?).getD []).length) ++
          Text.ofString (" " ++ name)
      print ("✓ Valid IDL: " ++ textOf "name" ++ Text.ofString " v" ++ textOf "version" ++
        Text.ofString " (" ++
        Text.joinWith ", " (["instructions", "accounts", "types", "errors"].map count) ++ ")")

/-- A word with its first letter in upper case. -/
def capitalized (word : String) : String :=
  match word.toList with
  | [] => ""
  | c :: rest => String.ofList (c.toUpper :: rest)

/-- The lines that sum up a description. -/
def summaryLines (document : Document) : List Text :=
  let counts := document.summary.entries.map fun (name, count) =>
    Text.ofString ("  " ++ capitalized name ++ ": " ++ toString count)
  let instructions := document.instructions.map fun instruction =>
    "  " ++ instruction.name ++ Text.ofString "(" ++
      Text.joinWith ", " (instruction.arguments.map (·.name)) ++ ")"
  let types := document.types.map fun entry =>
    "  " ++ entry.name ++ Text.ofString (" [" ++ entry.body.word ++ "]")
  ("Program: " ++ document.name ++ Text.ofString " (IDL v" ++ document.version ++ ")") :: counts ++
    titled "\nInstructions:" instructions ++ titled "\nTypes:" types
where
  /-- Lines under a title, which is left out with them. -/
  titled (title : String) (lines : List Text) : List Text :=
    if lines.isEmpty then [] else Text.ofString title :: lines

/-- Sums up the description of a source. -/
def runSummary (settings : Settings) (words : List Text) : Session Unit := do
  let (_, source) ← readCommand .summary words
  let document ← describe settings source
  for line in summaryLines document do
    print line

/-- Writes the settings to their file, unless it is there and not to be replaced. -/
def runInitConfig (settings : Settings) (file : Path) (words : List Text) : Session Unit := do
  let (line, _) ← readCommand .initConfig words
  let console ← get
  match console.tree.holds file with
  | .error fault => fail (.file fault)
  | .ok isThere =>
    if isThere && !line.has .force then
      print ("Config already exists: " ++ file.text ++ " (use --force to overwrite)")
    else
      let (result, tree) := settings.save console.tree file
      set { console with tree }
      match ← emit result with
      | .error fault => fail (.saving fault)
      | .ok () => print ("Wrote config to " ++ file.text)

/-- Carries out a command. -/
def runVerb (verb : Verb) (settings : Settings) (file : Path) (words : List Text) : Session Unit :=
  match verb with
  | .generate => runGenerate settings words
  | .validate => runValidate words
  | .summary => runSummary settings words
  | .initConfig => runInitConfig settings file words
  | .serve => do
    let _ ← readCommand .serve words
    return

/-- Sets up the log as the settings or the command line ask for. -/
def setUpLog (settings : Settings) (line : Line Key) : Session Unit := do
  let level : Text :=
    if line.has .verbose then Log.Level.debug.name else settings.logging.level
  modify fun console =>
    { console with
      router := console.router.afterSetUp (.name level)
        (if settings.logging.json then .json else .plain) }

/-- The command that the first argument of a line names, and the words behind it. -/
def findVerb (line : Line Key) : Session (Verb × List Text) := do
  match line.arguments with
  | [] => misuse none .noCommand
  | word :: rest =>
    match Verb.ofName? word with
    | some verb => return (verb, rest)
    | none => do
      if word.head? = some (.scalar '-') then
        let _ ← readLine none commonSwitches (word :: rest)
      misuse none (.unknownCommand word
        (Text.similarTo word (Verb.all.map fun verb => Text.ofString verb.name)))

/-- Carries out a command line. -/
def runWords (words : List Text) : Session Unit := do
  if words.isEmpty then
    complain (help none)
    exit 2
  let line ← readLine none commonSwitches words
  let (verb, rest) ← findVerb line
  let environment := (← read).environment
  let file := ((line.value? .config).map Path.ofText).getD (Settings.defaultFile environment.home)
  match ← emit (Settings.load environment (← get).tree file) with
  | .error (.invalid .unwritable) => fail (.settings (.invalid .unwritable))
  | .error (.invalid fault) => do
    complain ("Error: " ++ fault.message ++ "\n")
    exit 1
  | .error fault => fail (.settings fault)
  | .ok settings => do
    setUpLog settings line
    runVerb verb settings file rest

/-- How a run ended: the exit code, the failure if there was one, what was written to the outputs,
and the files. -/
structure Outcome where
  code : Nat
  failure : Option Failure
  output : Text
  errors : Text
  tree : FileTree

/-- Runs the program with the words of a command line on some files. -/
def run (context : Context) (tree : FileTree) (words : List Text) : Outcome :=
  let (ending, console) := ((runWords words).run context).run.run ⟨tree, .start, [], []⟩
  let (code, failure) : Nat × Option Failure :=
    match ending with
    | .ok () => (0, none)
    | .error (.exit code) => (code, none)
    | .error (.failed failure) => (1, some failure)
  ⟨code, failure, console.output, console.errors, console.tree⟩

end Command

end ProgramInterface
