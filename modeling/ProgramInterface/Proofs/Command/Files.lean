import ProgramInterface.Proofs.Command.Generate

/-!
# Files that a run touches

Every part of a run but the deliveries of `generate` and `init-config` leaves the files as they are
(`Session.Keeps`). What a run may touch is told from there: nothing for a line that calls for no command
and for the commands that only look, a description in one file for `generate`, and the settings file for
`init-config` (`run_touches_own_files`).
-/

namespace ProgramInterface

namespace Command

/-- The exit code of a run that ends before its last step. -/
def Stop.code : Stop → Nat
  | .exit code => code
  | .failed _ => 1

/-- The exit code of a run. -/
def codeOf : Except Stop Unit → Nat
  | .ok () => 0
  | .error stop => stop.code

theorem code_run (context : Context) (tree : FileTree) (words : List Text) :
    (run context tree words).code =
      codeOf (Session.outcome (runWords words) context ⟨tree, .start, [], []⟩).1 := by
  unfold run Session.outcome
  rcases ((runWords words).run context).run.run ⟨tree, .start, [], []⟩ with ⟨ending, console⟩
  rcases ending with (_ | _) | _ <;> rfl

theorem tree_run (context : Context) (tree : FileTree) (words : List Text) :
    (run context tree words).tree =
      (Session.outcome (runWords words) context ⟨tree, .start, [], []⟩).2.tree := rfl

/-! ## Parts of a run that leave the files as they are -/

namespace Session

variable {α β : Type} {context : Context} {tree : FileTree} {helps : Prop} {gives : α → Prop}
  {givesNext : β → Prop} {action : Session α} {next : α → Session β}

/-- Whether a part of a run may end like this: what it gives has a property, and if it ends the run, the
exit code is 0 only where help is asked for. -/
def Allows (helps : Prop) (gives : α → Prop) : Except Stop α → Prop
  | .ok a => gives a
  | .error stop => stop.code = 0 → helps

/-- Whether a part of a run leaves the files as they are, however it ends, and ends as it may. -/
def Keeps (context : Context) (tree : FileTree) (helps : Prop) (action : Session α)
    (gives : α → Prop) : Prop :=
  ∀ console, console.tree = tree → (outcome action context console).2.tree = tree ∧
    Allows helps gives (outcome action context console).1

theorem Keeps.pure {a : α} (h : gives a) : Keeps context tree helps (Pure.pure a) gives :=
  fun _ htree => ⟨htree, h⟩

/-- What follows a part that keeps the files goes on with the same files, or the run has ended. -/
theorem Keeps.outcome_bind_cases (h : Keeps context tree helps action gives)
    (next : α → Session β) {console : Console} (htree : console.tree = tree) :
    (∃ a between, gives a ∧ between.tree = tree ∧
      outcome (action >>= next) context console = outcome (next a) context between) ∨
    ∃ stop between, (stop.code = 0 → helps) ∧ between.tree = tree ∧
      outcome (action >>= next) context console = (.error stop, between) := by
  have hfirst := h console htree
  rcases houtcome : outcome action context console with ⟨ending, between⟩
  rw [houtcome] at hfirst
  obtain ⟨hbetween, hending⟩ := hfirst
  cases ending with
  | ok a => exact .inl ⟨a, between, hending, hbetween, outcome_bind houtcome next⟩
  | error stop => exact .inr ⟨stop, between, hending, hbetween, outcome_bind_error houtcome next⟩

theorem Keeps.bind (h : Keeps context tree helps action gives)
    (hnext : ∀ a, gives a → Keeps context tree helps (next a) givesNext) :
    Keeps context tree helps (action >>= next) givesNext := by
  intro console htree
  obtain ⟨a, between, ha, hbetween, hrun⟩ | ⟨stop, between, hstop, hbetween, hrun⟩ :=
    h.outcome_bind_cases next htree
  · rw [hrun]
    exact hnext a ha between hbetween
  · rw [hrun]
    exact ⟨hbetween, hstop⟩

theorem Keeps.pure_bind {a : α} (h : Keeps context tree helps (next a) givesNext) :
    Keeps context tree helps (Pure.pure a >>= next) givesNext := h

/-- A loop keeps the files if every round does. -/
theorem Keeps.for_in {ι : Type} {items : List ι} {body : ι → PUnit → Session (ForInStep PUnit)}
    (h : ∀ item round, Keeps context tree helps (body item round) fun _ => True) :
    Keeps context tree helps (forIn items ⟨⟩ body) fun _ => True := by
  induction items with
  | nil => exact .pure trivial
  | cons item rest ih =>
      rw [List.forIn_cons]
      refine .bind (h item _) fun step _ => ?_
      cases step with
      | done _ => exact .pure trivial
      | yield _ => exact ih

/-- What looks at the console first finds the files as they are. -/
theorem Keeps.get_bind {next : Console → Session β}
    (h : ∀ console, console.tree = tree → Keeps context tree helps (next console) givesNext) :
    Keeps context tree helps (get >>= next) givesNext :=
  fun console htree => h console htree console htree

theorem keeps_modify {change : Console → Console}
    (h : ∀ console, (change console).tree = console.tree) :
    Keeps context tree helps (modify change) fun _ => True :=
  fun console htree => ⟨(h console).trans htree, trivial⟩

theorem keeps_complain (t : Text) : Keeps context tree helps (complain t) fun _ => True :=
  keeps_modify fun _ => rfl

theorem keeps_print (t : Text) : Keeps context tree helps (print t) fun _ => True :=
  keeps_modify fun _ => rfl

theorem keeps_exit {code : Nat} (h : code = 0 → helps) :
    Keeps context tree helps (exit code) gives :=
  fun _ htree => ⟨htree, h⟩

theorem keeps_fail (failure : Failure) : Keeps context tree helps (fail failure) gives :=
  fun _ htree => ⟨htree, nofun⟩

theorem keeps_misuse (verb : Option Verb) (fault : UsageFault) :
    Keeps context tree helps (misuse verb fault) gives :=
  .bind (keeps_complain _) fun _ _ => keeps_exit nofun

/-- What would come after the report on a misuse does not matter. -/
theorem keeps_misuse_bind (verb : Option Verb) (fault : UsageFault) :
    Keeps context tree helps (misuse verb fault >>= next) givesNext :=
  have hmisuse : Keeps context tree helps (misuse (α := α) verb fault) fun _ => False :=
    keeps_misuse verb fault
  hmisuse.bind nofun

theorem keeps_show_help (verb : Option Verb) (h : helps) :
    Keeps context tree helps (showHelp verb) gives :=
  .bind (keeps_modify fun _ => rfl) fun _ _ => keeps_exit fun _ => h

theorem keeps_emit (logged : Logged α) :
    Keeps context tree helps (emit logged) (· = logged.value) := by
  intro console htree
  obtain ⟨errors, hemit⟩ := outcome_emit logged context console
  rw [hemit]
  exact ⟨htree, rfl⟩

/-- Whether a run from here on ends with an exit code and files as they may be. -/
def Ends (context : Context) (tree : FileTree) (action : Session Unit)
    (mayEnd : Nat → FileTree → Prop) : Prop :=
  ∀ console, console.tree = tree →
    mayEnd (codeOf (outcome action context console).1) (outcome action context console).2.tree

section

variable {mayEnd : Nat → FileTree → Prop}

/-- What comes before the rest of a run ends it with the files as they are, or the rest decides. -/
theorem Ends.bind {next : α → Session Unit} (h : Keeps context tree helps action gives)
    (hstops : ∀ code, (code = 0 → helps) → mayEnd code tree)
    (hnext : ∀ a, gives a → Ends context tree (next a) mayEnd) :
    Ends context tree (action >>= next) mayEnd := by
  intro console htree
  obtain ⟨a, between, ha, hbetween, hrun⟩ | ⟨stop, between, hstop, hbetween, hrun⟩ :=
    h.outcome_bind_cases next htree
  · rw [hrun]
    exact hnext a ha between hbetween
  · rw [hrun]
    show mayEnd stop.code between.tree
    rw [hbetween]
    exact hstops _ hstop

theorem Ends.read_bind {next : Context → Session Unit}
    (h : Ends context tree (next context) mayEnd) : Ends context tree (read >>= next) mayEnd := h

theorem Ends.get_bind {next : Console → Session Unit}
    (h : ∀ console, console.tree = tree → Ends context tree (next console) mayEnd) :
    Ends context tree (get >>= next) mayEnd :=
  fun console htree => h console htree console htree

theorem Ends.set_bind {console : Console} {next : PUnit → Session Unit}
    (h : Ends context console.tree (next ⟨⟩) mayEnd) :
    Ends context tree (set console >>= next) mayEnd :=
  fun _ _ => h console rfl

theorem Ends.exit {code : Nat} (h : mayEnd code tree) :
    Ends context tree (exit code) mayEnd := by
  rintro console rfl
  exact h

theorem Ends.exit_bind {code : Nat} {next : α → Session Unit} (h : mayEnd code tree) :
    Ends context tree (Session.exit code >>= next) mayEnd := by
  rintro console rfl
  exact h

theorem Ends.fail {failure : Failure} (h : mayEnd 1 tree) :
    Ends context tree (fail failure) mayEnd := by
  rintro console rfl
  exact h

theorem Ends.imp {action : Session Unit} {mayEndNext : Nat → FileTree → Prop}
    (h : Ends context tree action mayEnd)
    (himp : ∀ code after, mayEnd code after → mayEndNext code after) :
    Ends context tree action mayEndNext :=
  fun console htree => himp _ _ (h console htree)

/-- A part of a run that keeps the files is the last one. -/
theorem Ends.of_keeps {action : Session Unit} (h : Keeps context tree True action fun _ => True)
    (hends : ∀ code, mayEnd code tree) : Ends context tree action mayEnd := by
  intro console htree
  rw [(h console htree).1]
  exact hends _

end

end Session

open Session

variable {context : Context} {tree : FileTree} {helps : Prop}

theorem keeps_check_path (verb : Option Verb) (switch : Switch Key) (word : Text) :
    Keeps context tree helps (checkPath verb switch word) fun _ => True := by
  unfold checkPath
  refine .get_bind fun console _ => ?_
  dsimp only
  split
  · exact keeps_misuse _ _
  · exact .pure trivial
  · exact keeps_misuse _ _
  · exact .pure trivial
  · exact .pure trivial
  · exact keeps_fail _

theorem keeps_check_switch (verb : Option Verb) (switch : Switch Key) (word : Text) :
    Keeps context tree helps (checkSwitch verb switch word) fun _ => True := by
  unfold checkSwitch
  split
  · exact keeps_check_path _ _ _
  · exact keeps_check_path _ _ _
  · exact keeps_check_path _ _ _
  · split
    · exact .pure trivial
    · exact keeps_misuse _ _
  · exact .pure trivial

theorem keeps_check_line (verb : Option Verb) (switches : List (Switch Key)) {line : Line Key}
    (h : line.has .help = true → helps) :
    Keeps context tree helps (checkLine verb switches line) fun _ => line.has .help = false := by
  unfold checkLine
  split
  · rename_i hhelp
    exact keeps_show_help _ (h hhelp)
  · rename_i hhelp
    refine .bind (.for_in fun key _ => ?_) fun _ _ => .pure (Bool.eq_false_iff.2 hhelp)
    split
    · exact .bind (keeps_check_switch _ _ _) fun _ _ => .pure trivial
    · exact .pure trivial

/-- A line that is read does not ask for help. -/
theorem keeps_read_line (verb : Option Verb) (switches : List (Switch Key)) {words : List Text}
    (h : ∀ line, readWords switches verb.isSome words = .ok line → line.has .help = true → helps) :
    Keeps context tree helps (readLine verb switches words) fun line =>
      readWords switches verb.isSome words = .ok line ∧ line.has .help = false := by
  unfold readLine
  cases hread : readWords switches verb.isSome words with
  | error fault => exact keeps_misuse _ _
  | ok line =>
      exact .bind (keeps_check_line verb switches (h line hread)) fun _ hhelp => .pure ⟨rfl, hhelp⟩

theorem keeps_open_file (verb : Verb) (place : String) (word : Text) :
    Keeps context tree helps (openFile verb place word) (Opens context tree word) := by
  unfold openFile Opens
  split
  · exact fun _ htree => ⟨htree, rfl⟩
  · refine .get_bind fun console htree => ?_
    rw [htree]
    split
    · exact .pure ‹_›
    · exact keeps_misuse _ _
    · exact keeps_misuse _ _
    · exact keeps_fail _

/-- A command that is about a file is carried out with the content of the file that its only argument
names. -/
theorem keeps_read_command (verb : Verb) {words : List Text}
    (h : ∀ line, readWords verb.switches true words = .ok line → line.has .help = true → helps) :
    Keeps context tree helps (readCommand verb words) fun (line, content) =>
      readWords verb.switches true words = .ok line ∧ ∀ place, verb.argument? = some place →
        ∃ word, line.arguments = [word] ∧ Opens context tree word content := by
  unfold readCommand
  refine .bind (keeps_read_line (some verb) verb.switches h) fun line hline => ?_
  split
  · rename_i hplace
    refine .pure_bind ?_
    dsimp only
    split
    · exact keeps_misuse_bind _ _
    · exact .pure ⟨hline.1, fun _ hsome => nomatch hplace.symm.trans hsome⟩
  · exact keeps_misuse _ _
  · rename_i word rest hplace harguments
    refine .bind (keeps_open_file verb _ word) fun content hopens => ?_
    refine .pure_bind ?_
    dsimp only
    split
    · exact keeps_misuse_bind _ _
    · rename_i hsurplus
      have hrest : rest = [] := by simpa using hsurplus
      exact .pure ⟨hline.1, fun _ _ => ⟨word, hrest ▸ harguments, hopens⟩⟩

theorem keeps_describe (settings : Settings) (source : List UInt8) :
    Keeps context tree helps (describe settings source) fun document =>
      generate settings.generation (.bytes source) = .ok document := by
  unfold describe
  refine .bind (keeps_emit _) ?_
  rintro _ rfl
  rw [value_generateLogged]
  split
  · exact .pure ‹_›
  · exact keeps_fail _
  · exact .bind (keeps_complain _) fun _ _ => keeps_exit nofun

/-! ## Commands that only look -/

theorem keeps_run_validate {words : List Text}
    (h : ∀ line, readWords Verb.validate.switches true words = .ok line → line.has .help = true →
      helps) : Keeps context tree helps (runValidate words) fun _ => True := by
  unfold runValidate
  refine .bind (keeps_read_command .validate h) fun (_, content) _ => ?_
  dsimp only
  split
  · exact keeps_fail _
  · split
    · exact .bind (keeps_complain _) fun _ _ => keeps_exit nofun
    · exact keeps_print _

theorem keeps_run_summary (settings : Settings) {words : List Text}
    (h : ∀ line, readWords Verb.summary.switches true words = .ok line → line.has .help = true →
      helps) : Keeps context tree helps (runSummary settings words) fun _ => True := by
  unfold runSummary
  refine .bind (keeps_read_command .summary h) fun (_, source) _ => ?_
  refine .bind (keeps_describe settings source) fun document _ => ?_
  refine .bind (.for_in fun line _ => ?_) fun _ _ => .pure trivial
  exact .bind (keeps_print _) fun _ _ => .pure trivial

/-! ## Lines that call for a command -/

/-- What a command line calls for: the switches in front of the command, the command, and the words
behind it. -/
structure Invocation where
  common : Line Key
  verb : Verb
  rest : List Text

/-- The command that the words of a command line call for. -/
def invocation? (words : List Text) : Option Invocation :=
  match readWords commonSwitches false words with
  | .error _ => none
  | .ok common =>
    match common.arguments with
    | [] => none
    | word :: rest => (Verb.ofName? word).map fun verb => ⟨common, verb, rest⟩

example : (invocation? ["--config=c.yaml", "init-config", "--force"]).map (·.verb) =
    some .initConfig := by
  decide +kernel

namespace Invocation

/-- The settings file of a run. -/
def settingsFile (invocation : Invocation) (context : Context) : Path :=
  ((invocation.common.value? .config).map Path.ofText).getD
    (Settings.defaultFile context.environment.home)

/-- Whether a line is the one behind the command. -/
def HasLine (invocation : Invocation) (line : Line Key) : Prop :=
  readWords invocation.verb.switches true invocation.rest = .ok line

/-- Whether help is asked for, in front of the command or behind it. -/
def AsksHelp (invocation : Invocation) : Prop :=
  invocation.common.has .help = true ∨ ∃ line, invocation.HasLine line ∧ line.has .help = true

end Invocation

section

variable {words : List Text} {line : Line Key}
  (hline : readWords commonSwitches false words = .ok line)
include hline

theorem invocation_of_arguments {word : Text} {rest : List Text}
    (h : line.arguments = word :: rest) :
    invocation? words = (Verb.ofName? word).map fun verb => ⟨line, verb, rest⟩ := by
  rw [invocation?, hline]
  dsimp only
  rw [h]

theorem common_of_invocation {invocation : Invocation} (h : invocation? words = some invocation) :
    invocation.common = line := by
  cases harguments : line.arguments with
  | nil =>
      rw [invocation?, hline] at h
      dsimp only at h
      rw [harguments] at h
      cases h
  | cons word rest =>
      rw [invocation_of_arguments hline harguments] at h
      obtain ⟨_, _, rfl⟩ := Option.map_eq_some_iff.1 h
      rfl

/-- The command of a line is found, or the run ends; help is given only in place of an unknown
command. -/
theorem keeps_find_verb (h : invocation? words = none → helps) :
    Keeps context tree helps (findVerb line) fun (verb, rest) =>
      invocation? words = some ⟨line, verb, rest⟩ := by
  unfold findVerb
  split
  · exact keeps_misuse _ _
  · rename_i word rest harguments
    have hwords := invocation_of_arguments hline harguments
    split
    · rename_i verb hverb
      rw [hverb] at hwords
      exact .pure hwords
    · rename_i hverb
      rw [hverb] at hwords
      split
      · exact .bind (keeps_read_line none commonSwitches fun _ _ _ => h hwords) fun _ _ =>
          keeps_misuse _ _
      · exact keeps_misuse _ _

end

/-- A run comes to the command that its words call for, unless it ends before that with the files as they
are. -/
theorem run_words_ends {words : List Text} {mayEnd : Nat → FileTree → Prop}
    (hnone : invocation? words = none → ∀ code, mayEnd code tree)
    (hstops : ∀ invocation, invocation? words = some invocation →
      ∀ code, (code = 0 → invocation.common.has .help = true) → mayEnd code tree)
    (hverb : ∀ invocation, invocation? words = some invocation → ∀ settings,
      (Settings.load context.environment tree (invocation.settingsFile context)).value =
        .ok settings →
      Ends context tree (runVerb invocation.verb settings (invocation.settingsFile context)
        invocation.rest) mayEnd) :
    Ends context tree (runWords words) mayEnd := by
  -- However the run stops before a command, it does so with the files as they are.
  have hstop : ∀ code, (code = 0 → ∀ invocation, invocation? words = some invocation →
      invocation.common.has .help = true) → mayEnd code tree := by
    intro code hcode
    cases hwords : invocation? words with
    | none => exact hnone hwords code
    | some invocation => exact hstops _ hwords code fun hzero => hcode hzero _ hwords
  unfold runWords
  split
  · exact .bind (keeps_complain _) hstop fun _ _ => .exit_bind (hstop 2 nofun)
  · refine .bind (keeps_read_line none commonSwitches fun line hline hhelp invocation hwords => ?_)
      hstop fun line hline => ?_
    · rwa [common_of_invocation hline hwords]
    refine .bind (keeps_find_verb hline.1 fun hwords _ hsome => ?_) hstop
      fun (verb, rest) hwords => ?_
    · cases hwords.symm.trans hsome
    dsimp only
    refine .read_bind (.get_bind fun console htree => ?_)
    rw [htree]
    refine .bind (keeps_emit _) hstop ?_
    rintro _ rfl
    split
    · exact .fail (hstop 1 nofun)
    · exact .bind (keeps_complain _) hstop fun _ _ => .exit (hstop 1 nofun)
    · exact .fail (hstop 1 nofun)
    · rename_i settings hload
      refine .bind (keeps_modify fun _ => rfl) hstop fun _ _ => ?_
      exact hverb _ hwords settings hload

/-! ## The command to describe a source -/

/-- The indentation of a description: the one that the line asks for, else that of the settings. -/
def indentOfLine (line : Line Key) (settings : Settings) : Int :=
  ((line.value? .indent).bind fun word => (indentOf word).toOption).getD settings.output.indent

/-- The file that a description goes to: the one that the line names, else the one for the description
in the directory that the line names or else in that of the settings. Without any of them the
description goes to the output. -/
def targetOf (line : Line Key) (settings : Settings) (document : Document) : Option Path :=
  ((line.value? .output).map Path.ofText).or
    ((((line.value? .outputDirectory).map Path.ofText).or settings.output.directory).map
      document.fileIn)

/-- Whether the files are as before but for a text in the file at a path, if there is one. -/
def PutsText (tree after : FileTree) (text : Text) : Option Path → Prop
  | some path => tree.ReplacesFile after path (FileAction.encoded text)
  | none => after = tree

/-- What may become of the files if a text is put at a path: on success it is there and complete, and
otherwise no file changes. -/
structure Puts (tree : FileTree) (text : Text) (target : Option Path) (code : Nat)
    (after : FileTree) : Prop where
  failed : code ≠ 0 → tree.AddsDirectories after
  succeeded : code = 0 → PutsText tree after text target

theorem Puts.of_delivers {delivery : Session Unit} {console : Console} {succeeded : Prop}
    {after : FileTree} {output text : Text} {directory path : Path}
    (h : Delivers delivery context console succeeded after output)
    (hwrite : WriteOutcome tree after directory path (some text) succeeded)
    (htext : text.WellFormed) :
    Puts tree text (some path) (codeOf (outcome delivery context console).1)
      (outcome delivery context console).2.tree := by
  obtain ⟨ending, errors, hdelivery, hending⟩ := h.ends
  have hstorable : FileAction.IsStorable (some text) := ⟨text, rfl, htext⟩
  rw [hdelivery]
  obtain ⟨rfl, hsucceeded⟩ | ⟨⟨failure, rfl⟩, hfailed⟩ := hending
  · have hadmits := (hwrite.succeeds_iff.1 hsucceeded).1
    exact ⟨fun hcode => absurd rfl hcode, fun _ => hwrite.stored hadmits text rfl htext⟩
  · have hrefused : ¬ tree.Admits directory path := fun hadmits =>
      hfailed (hwrite.succeeds_iff.2 ⟨hadmits, hstorable⟩)
    exact ⟨fun _ => hwrite.kept hrefused, nofun⟩

theorem deliver_ends {document : Document} {indent : Int} {text : Text}
    (h : document.fileText? indent = some text) (htext : text.WellFormed)
    (file directory : Option Path) :
    Ends context tree (deliver document indent file directory)
      (Puts tree text (file.or (directory.map document.fileIn))) := by
  rintro console rfl
  cases file with
  | some path =>
      have hwrite := FileAction.write_in_outcome console.tree path.parent path text
      exact .of_delivers (deliver_to_file h context console path directory) hwrite htext
  | none =>
      cases directory with
      | some directory =>
          have hpublish := document.publish_outcome console.tree directory indent
          rw [h] at hpublish
          exact .of_delivers (deliver_to_directory h context console directory) hpublish htext
      | none =>
          obtain ⟨ending, errors, hdelivery, ⟨rfl, _⟩ | ⟨_, hfailed⟩⟩ :=
            (deliver_to_output h context console).ends
          · rw [hdelivery]
            exact ⟨fun hcode => absurd rfl hcode, fun _ => rfl⟩
          · exact absurd trivial hfailed

/-- Whether a description is the one that a run is asked for: that of the source that the line behind
the command names, under the settings of the run. -/
structure Describes (context : Context) (tree : FileTree) (invocation : Invocation) (line : Line Key)
    (settings : Settings) (document : Document) : Prop where
  has_line : invocation.HasLine line
  loads : (Settings.load context.environment tree (invocation.settingsFile context)).value =
    .ok settings
  generates : ∃ word source, line.arguments = [word] ∧ Opens context tree word source ∧
    generate settings.generation (.bytes source) = .ok document

/-- What may become of the files in a run that is asked for a description. With the exit code 0 help was
asked for and nothing changes, or the JSON text of the description and a line end are put where the line
and the settings send them. With another exit code no file changes. -/
structure TouchesDescription (context : Context) (tree : FileTree) (invocation : Invocation)
    (code : Nat) (after : FileTree) : Prop where
  failed : code ≠ 0 → tree.AddsDirectories after
  succeeded : code = 0 → invocation.AsksHelp ∧ after = tree ∨
    ∃ line settings document json, Describes context tree invocation line settings document ∧
      document.encode? (some (indentOfLine line settings)) = some json ∧ json.WellFormed ∧
      PutsText tree after (json ++ "\n") (targetOf line settings document)

theorem TouchesDescription.of_same {invocation : Invocation} {code : Nat}
    (h : code = 0 → invocation.AsksHelp) :
    TouchesDescription context tree invocation code tree :=
  ⟨fun _ => .refl tree, fun hcode => .inl ⟨h hcode, rfl⟩⟩

/-- A description that is generated has a text, which is well-formed. -/
theorem exists_text_of_generate {settings : GenerationSettings} {source : Source}
    {document : Document} (h : generate settings source = .ok document) (indent : Int) :
    ∃ json : Text, document.encode? (some indent) = some json ∧ json.WellFormed := by
  have hwell := generate_well_formed h
  have hreturns : document.toJson.Returns true := hwell.returns
  obtain ⟨_, json, hencode, _⟩ := hwell.round_trip (some indent)
  refine ⟨json, hencode, ?_⟩
  rw [write_of_encode hencode]
  exact hreturns.well_formed_write

theorem run_generate_ends {common : Line Key} {rest : List Text} {settings : Settings}
    (hload : (Settings.load context.environment tree
      (Invocation.settingsFile ⟨common, .generate, rest⟩ context)).value = .ok settings) :
    Ends context tree (runGenerate settings rest)
      (TouchesDescription context tree ⟨common, .generate, rest⟩) := by
  rw [run_generate_eq]
  refine .bind (keeps_read_command .generate fun line hline hhelp => .inr ⟨line, hline, hhelp⟩)
    (fun _ => .of_same) fun (line, source) hread => ?_
  obtain ⟨hline, hsource⟩ := hread
  obtain ⟨word, hargument, hopens⟩ := hsource "SOURCE" rfl
  refine .bind (keeps_describe settings source) (fun _ => .of_same) fun document hgenerate => ?_
  obtain ⟨json, hencode, hjson⟩ := exists_text_of_generate hgenerate (indentOfLine line settings)
  have hfile : document.fileText? (indentOfLine line settings) = some (json ++ "\n") := by
    rw [Document.fileText?, hencode]
    rfl
  have hdescribes : Describes context tree ⟨common, .generate, rest⟩ line settings document :=
    ⟨hline, hload, word, source, hargument, hopens, hgenerate⟩
  refine (deliver_ends hfile (Text.well_formed_append_string.2 hjson) _ _).imp
    fun code after hputs => ⟨hputs.failed, fun hcode => ?_⟩
  exact .inr ⟨line, settings, document, json, hdescribes, hencode, hjson, hputs.succeeded hcode⟩

/-! ## The command to write the settings -/

/-- What may become of the files in a run that is asked to write the settings. Only the settings file
may change, and not even that if it is there and not to be replaced. -/
structure TouchesSettings (context : Context) (tree : FileTree) (invocation : Invocation)
    (after : FileTree) : Prop where
  only : tree.AddsDirectories after ∨
    ∃ content, tree.ReplacesFile after (invocation.settingsFile context) content
  kept : tree.holds (invocation.settingsFile context) = .ok true →
    (∀ line, invocation.HasLine line → line.has .force = false) → after = tree

theorem TouchesSettings.of_same {invocation : Invocation} :
    TouchesSettings context tree invocation tree :=
  ⟨.inl (.refl tree), fun _ _ => rfl⟩

theorem run_init_config_ends {common : Line Key} {rest : List Text} (settings : Settings) :
    let invocation : Invocation := ⟨common, .initConfig, rest⟩
    Ends context tree (runInitConfig settings (invocation.settingsFile context) rest)
      fun _ after => TouchesSettings context tree invocation after := by
  intro invocation
  unfold runInitConfig
  refine .bind (keeps_read_command .initConfig fun _ _ _ => trivial) (fun _ _ => .of_same)
    fun (line, _) hread => ?_
  refine .get_bind fun console htree => ?_
  rw [htree]
  dsimp only
  split
  · exact .fail .of_same
  · rename_i isThere hholds
    split
    · exact .of_keeps (keeps_print _) fun _ => .of_same
    · rename_i hnot
      have hsave := settings.save_outcome tree (invocation.settingsFile context)
      have htouches : TouchesSettings context tree invocation
          (settings.save tree (invocation.settingsFile context)).2 := by
        refine ⟨hsave.adds_or_replaces, fun hthere hforce => absurd ?_ hnot⟩
        cases hholds.symm.trans hthere
        rw [hforce line hread.1]
        rfl
      refine .set_bind (.of_keeps (.bind (keeps_emit _) ?_) fun _ => htouches)
      rintro _ rfl
      split
      · exact keeps_fail _
      · exact keeps_print _

/-! ## All commands -/

/-- Whether files are as they may be after a run. Without a command, and after the commands that only
look, they are as before; the other commands touch only what is theirs. What a server does on request is
not told here. -/
def TouchesOwnFiles (context : Context) (tree : FileTree) (words : List Text) (code : Nat)
    (after : FileTree) : Prop :=
  match invocation? words with
  | none => after = tree
  | some invocation =>
    match invocation.verb with
    | .generate => TouchesDescription context tree invocation code after
    | .initConfig => TouchesSettings context tree invocation after
    | .summary | .validate => after = tree
    | .serve => True

/-- A run that ends with the files as they are may do so with the exit code 0 if help is asked for. -/
theorem TouchesOwnFiles.of_same {words : List Text} {invocation : Invocation} {code : Nat}
    (h : invocation? words = some invocation)
    (hcode : code = 0 → invocation.common.has .help = true) :
    TouchesOwnFiles context tree words code tree := by
  unfold TouchesOwnFiles
  rw [h]
  dsimp only
  split
  · exact .of_same fun hzero => .inl (hcode hzero)
  · exact .of_same
  · rfl
  · rfl
  · trivial

theorem run_verb_ends {words : List Text} {invocation : Invocation} {settings : Settings}
    (h : invocation? words = some invocation)
    (hload : (Settings.load context.environment tree (invocation.settingsFile context)).value =
      .ok settings) :
    Ends context tree (runVerb invocation.verb settings (invocation.settingsFile context)
      invocation.rest) (TouchesOwnFiles context tree words) := by
  unfold TouchesOwnFiles
  rw [h]
  obtain ⟨common, verb, rest⟩ := invocation
  cases verb with
  | generate => exact run_generate_ends hload
  | initConfig => exact run_init_config_ends settings
  | summary => exact .of_keeps (keeps_run_summary settings fun _ _ _ => trivial) fun _ => rfl
  | validate => exact .of_keeps (keeps_run_validate fun _ _ _ => trivial) fun _ => rfl
  | serve => exact fun _ _ => trivial

/-- A run touches only the files of the command that its words call for. Checking a description and
summing up a source touch none. A run that describes a source changes no file unless its exit code is 0.
Then it changes the file that the line names, else the one for the description in the directory that the
line names or else in that of the settings, and there stands the JSON text of the description and a line
end. A run that writes the settings changes at most the settings file, and nothing if that is there and
not to be replaced. -/
theorem run_touches_own_files (context : Context) (tree : FileTree) (words : List Text) :
    TouchesOwnFiles context tree words (run context tree words).code
      (run context tree words).tree := by
  have hends : Ends context tree (runWords words) (TouchesOwnFiles context tree words) := by
    refine run_words_ends (fun hwords _ => ?_) (fun _ hwords _ => .of_same hwords)
      fun _ hwords _ hload => run_verb_ends hwords hload
    unfold TouchesOwnFiles
    rw [hwords]
  rw [code_run, tree_run]
  exact hends ⟨tree, .start, [], []⟩ rfl

end Command

end ProgramInterface
