import ProgramInterface.Proofs.Command.Session
import ProgramInterface.Proofs.Storage
import ProgramInterface.Proofs.Tools

/-!
# Where a description goes

The command that describes a source puts the description into a file, into a directory, or on the
output, and the tool for descriptions answers with it. All of them give the same text of a source if
they work with the same settings; the command ends it with a line end (`outlets_agree`).
-/

namespace ProgramInterface

namespace Command

open Session

/-! ## Command lines for descriptions -/

/-- A command line that is read as the command to describe a source: the switches in front of the
command, those behind it, and the content of the source. -/
structure GenerateLine (context : Context) (tree : FileTree) (words : List Text) where
  common : Line Key
  rest : List Text
  line : Line Key
  word : Text
  source : List UInt8
  common_read : readWords commonSwitches false words = .ok common
  common_usable : Usable tree common
  verb_eq : common.arguments = Text.ofString "generate" :: rest
  line_read : readWords Verb.generate.switches true rest = .ok line
  line_usable : Usable tree line
  argument_eq : line.arguments = [word]
  opens : Opens context tree word source

/-- Where a description goes. -/
inductive Destination where
  | output
  | file (path : Path)
  | directory (path : Path)

namespace GenerateLine

variable {context : Context} {tree : FileTree} {words : List Text}

/-- The settings file of a command line. -/
def settingsFile (command : GenerateLine context tree words) : Path :=
  ((command.common.value? .config).map Path.ofText).getD
    (Settings.defaultFile context.environment.home)

/-- The indentation that a command line asks for. -/
def indent? (command : GenerateLine context tree words) : Option Int :=
  (command.line.value? .indent).bind fun word => (indentOf word).toOption

/-- Where a command line sends a description: to a file that it names, else to a directory that it
names, else to the directory in the settings, else to the output. -/
def destination (command : GenerateLine context tree words) (settings : Settings) : Destination :=
  match command.line.value? .output, command.line.value? .outputDirectory,
    settings.output.directory with
  | some word, _, _ => .file (Path.ofText word)
  | none, some word, _ => .directory (Path.ofText word)
  | none, none, some directory => .directory directory
  | none, none, none => .output

end GenerateLine

/-! ## Delivering a description -/

/-- Puts the text of a description where it goes. -/
def deliver (document : Document) (indent : Int) (file directory : Option Path) : Session Unit :=
  match document.fileText? indent with
  | none => fail .unwritable
  | some text =>
    match file, directory with
    | some path, _ => do
      changeFiles .file do
        FileAction.makeDirectory path.parent
        FileAction.write path text
      tellWritten path
    | none, some directory => do
      let console ← get
      let (result, tree) := document.publish console.tree directory indent
      set { console with tree }
      match ← emit result with
      | .ok path => tellWritten path
      | .error fault => fail (.publishing fault)
    | none, none =>
      modify fun console => { console with output := console.output ++ text }

theorem run_generate_eq (settings : Settings) (words : List Text) :
    runGenerate settings words = (do
      let (line, source) ← readCommand .generate words
      let document ← describe settings source
      deliver document
        (((line.value? .indent).bind fun word => (indentOf word).toOption).getD
          settings.output.indent)
        ((line.value? .output).map Path.ofText)
        (((line.value? .outputDirectory).map Path.ofText).or settings.output.directory)) :=
  rfl

variable {context : Context} {console : Console} {settings : Settings} {document : Document}

theorem outcome_describe {source : List UInt8}
    (h : generate settings.generation (.bytes source) = .ok document) (context : Context)
    (console : Console) : ∃ errors,
    outcome (describe settings source) context console = (.ok document, { console with errors }) := by
  obtain ⟨errors, hemit⟩ :=
    outcome_emit (generateLogged settings.generation (.bytes source)) context console
  rw [value_generateLogged, h] at hemit
  exact ⟨errors, (outcome_bind hemit _).trans rfl⟩

/-- How a delivery ends, with the files and the output afterwards: it succeeds or it fails. -/
structure Delivers (delivery : Session Unit) (context : Context) (console : Console)
    (succeeded : Prop) (tree : FileTree) (output : Text) : Prop where
  ends : ∃ ending errors,
    outcome delivery context console = (ending, { console with tree, output, errors }) ∧
      (ending = .ok () ∧ succeeded ∨ (∃ failure, ending = .error (.failed failure)) ∧ ¬ succeeded)

section

variable {indent : Int} {text : Text} (h : document.fileText? indent = some text)
  (context : Context) (console : Console)
include h

/-- Without a file or a directory the text is put on the output. -/
theorem deliver_to_output :
    Delivers (deliver document indent none none) context console True console.tree
      (console.output ++ text) := by
  refine ⟨.ok (), console.errors, ?_, .inl ⟨rfl, trivial⟩⟩
  rw [deliver, h]
  rfl

/-- A file is written whatever the directory. -/
theorem deliver_to_file (path : Path) (directory : Option Path) :
    let written := FileAction.outcome (do
      FileAction.makeDirectory path.parent
      FileAction.write path text) console.tree
    Delivers (deliver document indent (some path) directory) context console
      (written.1 = .ok ()) written.2 console.output := by
  intro written
  have hchange : outcome (changeFiles .file do
      FileAction.makeDirectory path.parent
      FileAction.write path text) context console =
        (written.1.mapError fun fault => .failed (.file fault), { console with tree := written.2 }) :=
    outcome_change_files ..
  have hdeliver : outcome (deliver document indent (some path) directory) context console =
      outcome (changeFiles .file (do
        FileAction.makeDirectory path.parent
        FileAction.write path text) >>= fun _ => tellWritten path) context console := by
    rw [deliver, h]
  refine ⟨?_⟩
  rw [hdeliver]
  cases hresult : written.1 with
  | ok _ =>
      rw [hresult] at hchange
      exact ⟨.ok (), _, (outcome_bind hchange _).trans rfl, .inl ⟨rfl, rfl⟩⟩
  | error fault =>
      rw [hresult] at hchange
      exact ⟨_, _, outcome_bind_error hchange _, .inr ⟨⟨_, rfl⟩, nofun⟩⟩

/-- A description is published in a directory. -/
theorem deliver_to_directory (directory : Path) :
    let published := document.publish console.tree directory indent
    Delivers (deliver document indent none (some directory)) context console
      (published.1.value = .ok (document.fileIn directory)) published.2 console.output := by
  intro published
  obtain ⟨errors, hemit⟩ := outcome_emit published.1 context { console with tree := published.2 }
  have hdeliver : outcome (deliver document indent none (some directory)) context console =
      outcome (emit published.1 >>= fun
        | .ok path => tellWritten path
        | .error fault => fail (.publishing fault)) context { console with tree := published.2 } := by
    rw [deliver, h]
    rfl
  -- What publishing reports is put on the error output before its result counts.
  refine ⟨?_⟩
  rw [hdeliver, outcome_bind hemit]
  cases hresult : published.1.value with
  | ok path =>
      rw [Document.path_of_publish hresult]
      exact ⟨.ok (), _, rfl, .inl ⟨rfl, rfl⟩⟩
  | error fault => exact ⟨_, _, rfl, .inr ⟨⟨_, rfl⟩, nofun⟩⟩

end

/-! ## Runs up to the delivery -/

section

variable {tree : FileTree} {words : List Text}

theorem GenerateLine.words_not_empty (command : GenerateLine context tree words) :
    words.isEmpty = false := by
  cases words with
  | nil =>
      have hread : command.common = ⟨[], []⟩ := by
        have hempty := command.common_read
        rw [readWords] at hempty
        exact (Except.ok.inj hempty).symm
      have hverb := command.verb_eq
      rw [hread] at hverb
      cases hverb
  | cons word rest => rfl

/-- The delivery of a description by a command line. -/
def GenerateLine.delivery (command : GenerateLine context tree words) (settings : Settings)
    (document : Document) : Session Unit :=
  deliver document (command.indent?.getD settings.output.indent)
    ((command.line.value? .output).map Path.ofText)
    (((command.line.value? .outputDirectory).map Path.ofText).or settings.output.directory)

/-- The command is carried out up to the delivery. -/
theorem outcome_run_generate (command : GenerateLine context tree words)
    (hgenerate : generate settings.generation (.bytes command.source) = .ok document)
    (console : Console) (htree : console.tree = tree) :
    ∃ errors, outcome (runGenerate settings command.rest) context console =
      outcome (command.delivery settings document) context { console with errors } := by
  subst htree
  have hread := outcome_read_command rfl command.line_read command.line_usable command.argument_eq
    command.opens
  obtain ⟨errors, hdescribe⟩ := outcome_describe hgenerate context console
  refine ⟨errors, ?_⟩
  rw [run_generate_eq, outcome_bind hread]
  exact outcome_bind hdescribe _

theorem outcome_set_up_log (settings : Settings) (line : Line Key) (context : Context)
    (console : Console) : ∃ router,
    outcome (setUpLog settings line) context console = (.ok (), { console with router }) :=
  ⟨_, rfl⟩

/-- A command line for a description is carried out up to the delivery, which finds the files as they
were and nothing on the output. -/
theorem outcome_run_words (command : GenerateLine context tree words)
    (hload : (Settings.load context.environment tree command.settingsFile).value = .ok settings)
    (hgenerate : generate settings.generation (.bytes command.source) = .ok document) :
    ∃ router errors, outcome (runWords words) context ⟨tree, .start, [], []⟩ =
      outcome (command.delivery settings document) context ⟨tree, router, [], errors⟩ := by
  have hfind : outcome (findVerb command.common) context ⟨tree, .start, [], []⟩ =
      (.ok (.generate, command.rest), ⟨tree, .start, [], []⟩) := by
    unfold findVerb
    rw [command.verb_eq]
    rfl
  obtain ⟨loaded, hemit⟩ := outcome_emit
    (Settings.load context.environment tree command.settingsFile) context ⟨tree, .start, [], []⟩
  rw [hload] at hemit
  obtain ⟨router, hlog⟩ := outcome_set_up_log settings command.common context
    ⟨tree, .start, [], loaded⟩
  obtain ⟨errors, hrun⟩ := outcome_run_generate command hgenerate ⟨tree, router, [], loaded⟩ rfl
  refine ⟨router, errors, ?_⟩
  rw [← hrun]
  unfold runWords
  -- Between the command and its settings only the context and the files are looked up.
  rw [command.words_not_empty, if_neg Bool.false_ne_true,
    outcome_bind (outcome_read_line command.common_read command.common_usable), outcome_bind hfind,
    outcome_bind rfl, outcome_bind rfl]
  change outcome (emit (Settings.load context.environment tree command.settingsFile) >>= _) context
    _ = _
  rw [outcome_bind hemit]
  exact outcome_bind hlog _

/-- What a run comes to is told by its delivery. -/
theorem run_of_delivers {delivery : Session Unit} {succeeded : Prop} {after : FileTree}
    {output : Text}
    (hrun : outcome (runWords words) context ⟨tree, .start, [], []⟩ =
      outcome delivery context console)
    (h : Delivers delivery context console succeeded after output) :
    (run context tree words).tree = after ∧ (run context tree words).output = output ∧
      ((run context tree words).code = 0 ↔ succeeded) := by
  obtain ⟨ending, errors, hdelivery, hending⟩ := h.ends
  rw [hdelivery] at hrun
  have hwords : ((runWords words).run context).run.run ⟨tree, .start, [], []⟩ = _ := hrun
  unfold run
  rw [hwords]
  obtain ⟨rfl, hsucceeded⟩ | ⟨⟨failure, rfl⟩, hfailed⟩ := hending
  · exact ⟨rfl, rfl, iff_of_true rfl hsucceeded⟩
  · exact ⟨rfl, rfl, iff_of_false nofun hfailed⟩

/-- Whether a run has put a text where it goes, and nowhere else. -/
def Delivered (tree : FileTree) (outcome : Outcome) (document : Document) (text : Text) :
    Destination → Prop
  | .output => outcome.code = 0 ∧ outcome.output = text ∧ outcome.tree = tree
  | .file path => outcome.output = [] ∧
      WriteOutcome tree outcome.tree path.parent path (some text) (outcome.code = 0)
  | .directory directory => outcome.output = [] ∧
      WriteOutcome tree outcome.tree directory (document.fileIn directory) (some text)
        (outcome.code = 0)

theorem delivered_in_directory {indent : Int} {text : Text} {directory : Path} {router : Log.Router}
    {errors : Text}
    (hrun : outcome (runWords words) context ⟨tree, .start, [], []⟩ =
      outcome (deliver document indent none (some directory)) context ⟨tree, router, [], errors⟩)
    (htext : document.fileText? indent = some text) :
    Delivered tree (run context tree words) document text (.directory directory) := by
  obtain ⟨htree, houtput, hcode⟩ := run_of_delivers hrun (deliver_to_directory htext _ _ _)
  have hpublished := document.publish_outcome tree directory indent
  refine ⟨houtput, ?_⟩
  rw [htree, hcode, ← htext]
  exact hpublished

/-- The command puts the text of the description where the command line and the settings send it. -/
theorem run_delivered (command : GenerateLine context tree words)
    (hload : (Settings.load context.environment tree command.settingsFile).value = .ok settings)
    (hgenerate : generate settings.generation (.bytes command.source) = .ok document) {text : Text}
    (htext : document.fileText? (command.indent?.getD settings.output.indent) = some text) :
    Delivered tree (run context tree words) document text (command.destination settings) := by
  obtain ⟨router, errors, hrun⟩ := outcome_run_words command hload hgenerate
  unfold GenerateLine.delivery at hrun
  unfold GenerateLine.destination
  cases hfile : command.line.value? .output with
  | some word =>
      rw [hfile] at hrun
      obtain ⟨htree, houtput, hcode⟩ := run_of_delivers hrun (deliver_to_file htext _ _ _ _)
      have hwritten := FileAction.write_in_outcome tree (Path.ofText word).parent (Path.ofText word)
        text
      refine ⟨houtput, ?_⟩
      rw [htree, hcode]
      exact hwritten
  | none =>
      cases hword : command.line.value? .outputDirectory with
      | some word =>
          rw [hfile, hword] at hrun
          exact delivered_in_directory hrun htext
      | none =>
          cases hdirectory : settings.output.directory with
          | some directory =>
              rw [hfile, hword, hdirectory] at hrun
              exact delivered_in_directory hrun htext
          | none =>
              rw [hfile, hword, hdirectory] at hrun
              obtain ⟨htree, houtput, hcode⟩ := run_of_delivers hrun (deliver_to_output htext _ _)
              exact ⟨hcode.2 trivial, houtput, htree⟩

end

/-! ## All outlets -/

/-- The bytes of a source have the same description as its text. -/
theorem generate_bytes (settings : GenerationSettings) (s : String) :
    generate settings (.bytes (Utf8.encodeChars s.toList)) =
      generate settings (.text (Text.ofString s)) := by
  rw [generate, generate, Source.parse_bytes, Source.parse_text]

end Command

/-- All outlets give the same text of a description. For a source that is not empty and not too large,
and settings with which it has a description, the tool for descriptions answers with a text if it loads
these settings. A command line for the same source that loads the same settings and asks for an
indentation of two puts this text, ended by a line end, where the command line and the settings send
it: to a file that is named, else to the file for the description in a directory that is named, else
in the directory of the settings, else to the output. -/
theorem outlets_agree {s : String} {settings : Settings} {document : Document}
    (hsome : s ≠ "") (hshort : s.length ≤ Schema.sizeLimit)
    (hgenerate : generate settings.generation (.text (Text.ofString s)) = .ok document) :
    ∃ text : Text, text.WellFormed ∧
      (∀ environment files,
        (Settings.load environment files (Settings.defaultFile environment.home)).value =
          .ok settings →
        (Tool.call environment files (Text.ofString "arch_generate_idl")
          [(Text.ofString "source", .text (Text.ofString s))]).value = .ok (.description text)) ∧
      ∀ context tree words (command : Command.GenerateLine context tree words),
        (Settings.load context.environment tree command.settingsFile).value = .ok settings →
        command.source = Utf8.encodeChars s.toList → command.indent? = some 2 →
        Command.Delivered tree (Command.run context tree words) document (text ++ "\n")
          (command.destination settings) := by
  have hwell := generate_well_formed hgenerate
  have hreturns : document.toJson.Returns true := hwell.returns
  obtain ⟨_, text, hencode, _⟩ := hwell.round_trip (some Tool.indent)
  refine ⟨text, ?_, fun environment files hload => ?_, fun context tree words command hload hsource
    hindent => ?_⟩
  · rw [write_of_encode hencode]
    exact hreturns.well_formed_write
  -- The tool takes the source as a text.
  · refine Tool.call_generate_eq_ok.2 ⟨_, settings, document, Tool.argument_of_single ..,
      Text.well_formed_of_string s, ?_, ?_, hload, hgenerate, hencode⟩
    · refine List.ne_nil_of_length_pos ?_
      rw [Text.length_of_string]
      exact Nat.pos_of_ne_zero fun hlength => hsome (String.length_eq_zero_iff.1 hlength)
    · rwa [Text.length_of_string]
  -- The command reads bytes, whose description is that of the text that they encode.
  · rw [← Command.generate_bytes, ← hsource] at hgenerate
    have hfile : document.fileText? Tool.indent = some (text ++ "\n") := by
      rw [Document.fileText?, hencode]
      rfl
    refine Command.run_delivered command hload hgenerate ?_
    rw [hindent]
    exact hfile

namespace Command

/-- The tree whose only file is a source. -/
def sourceTree : FileTree :=
  ⟨[], [(["a.rs"], .file (bytesOf "fn f()\x7b\x7d"))]⟩

/-- A run at the root without input. -/
def rootContext : Context :=
  ⟨bareRoot, [], 0⟩

/-- The words of a command line that names a directory and a file for the description. -/
def fileWords : List Text :=
  ["generate", "a.rs", "--indent=2", "--output-dir=d", "-oo.json"]

/-- The switches in these words. -/
def fileLine : Line Key :=
  ⟨[(.indent, "2"), (.outputDirectory, "d"), (.output, "o.json")], ["a.rs"]⟩

/-- Whether words are read as a line is told by reading them. -/
theorem read_words_eq_ok {switches : List (Switch Key)} {mixed : Bool} {words : List Text}
    {line : Line Key} (h : (readWords switches mixed words).toOption.map
      (fun found => (found.given, found.arguments)) = some (line.given, line.arguments)) :
    readWords switches mixed words = .ok line := by
  cases hread : readWords switches mixed words with
  | error fault =>
      rw [hread] at h
      cases h
  | ok found =>
      rw [hread] at h
      obtain ⟨given, arguments⟩ := found
      cases h
      rfl

/-- These words are read as the command to describe the source. -/
def fileCommand : GenerateLine rootContext sourceTree fileWords where
  common := ⟨[], fileWords⟩
  rest := fileWords.tail
  line := fileLine
  word := "a.rs"
  source := bytesOf "fn f()\x7b\x7d"
  common_read := read_words_eq_ok (by decide +kernel)
  common_usable := ⟨rfl, fun _ _ => nofun⟩
  verb_eq := rfl
  line_read := read_words_eq_ok (by decide +kernel)
  line_usable := by
    refine ⟨rfl, fun key word hword => ?_⟩
    cases key with
    | output =>
        cases hword
        trivial
    | outputDirectory =>
        cases hword
        trivial
    | indent =>
        cases hword
        exact ⟨2, rfl⟩
    | _ => trivial
  argument_eq := rfl
  opens := rfl

end Command

/-- A file that is named is written, whatever directory is named, and it holds what the tool answers
with. -/
theorem outlets_agree_file : ∃ text : Text,
    (Tool.call bareRoot noFiles (Text.ofString "arch_generate_idl")
      [(Text.ofString "source", .text (Text.ofString "fn f()\x7b\x7d"))]).value =
        .ok (.description text) ∧
    (Command.run Command.rootContext Command.sourceTree Command.fileWords).code = 0 ∧
    (Command.run Command.rootContext Command.sourceTree Command.fileWords).tree.read
      (Path.ofText "o.json") = .ok (FileAction.encoded (text ++ "\n")) := by
  obtain ⟨document, hgenerate⟩ := exists_of_generate Settings.default.generation
    (.text (Text.ofString "fn f()\x7b\x7d")) (by decide +kernel)
  obtain ⟨text, hwell, htool, hcommand⟩ := outlets_agree (by decide) (by decide) hgenerate
  obtain ⟨_, hwritten⟩ : Command.Delivered Command.sourceTree _ document (text ++ "\n")
      (.file (Path.ofText "o.json")) :=
    hcommand _ _ _ Command.fileCommand rfl rfl rfl
  have hadmits : Command.sourceTree.Admits (Path.ofText "o.json").parent (Path.ofText "o.json") :=
    ⟨Command.sourceTree, rfl, [Text.ofString "o.json"], rfl, nofun⟩
  have hplain : Text.WellFormed (text ++ "\n") := Text.well_formed_append_string.2 hwell
  exact ⟨text, htool bareRoot noFiles load_no_files, hwritten.succeeds_iff.2 ⟨hadmits, _, rfl, hplain⟩,
    (hwritten.stored hadmits _ rfl hplain).read⟩

end ProgramInterface
