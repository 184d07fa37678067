import ProgramInterface.Command.Run
import ProgramInterface.Proofs.FileTree

/-!
# Parts of a run

What a part of a run gives and what it leaves on the console. A line whose switches have usable values
is read without a trace on the console (`outcome_read_line`), and so is the line of a command with the
file that it is about (`outcome_read_command`).
-/

namespace ProgramInterface

namespace Command

/-- What a part of a run gives, and the console afterwards. -/
def Session.outcome {α : Type} (action : Session α) (context : Context) (console : Console) :
    Except Stop α × Console :=
  (action.run context).run.run console

namespace Session

variable {α β : Type} {context : Context} {console between : Console}

/-- What follows an action goes on with what the action gives on the console that it leaves. -/
theorem outcome_bind_eq (action : Session α) (next : α → Session β) (context : Context)
    (console : Console) : outcome (action >>= next) context console =
      (ExceptT.bindCont (fun a => (next a).run context) (outcome action context console).1).run
        (outcome action context console).2 := rfl

theorem outcome_bind {action : Session α} {a : α}
    (h : outcome action context console = (.ok a, between)) (next : α → Session β) :
    outcome (action >>= next) context console = outcome (next a) context between := by
  rw [outcome_bind_eq, h]
  rfl

theorem outcome_bind_error {action : Session α} {stop : Stop}
    (h : outcome action context console = (.error stop, between)) (next : α → Session β) :
    outcome (action >>= next) context console = (.error stop, between) := by
  rw [outcome_bind_eq, h]
  rfl

/-- What each round of a loop keeps is kept by the loop. -/
theorem outcome_for_in {ι : Type} (keeps : Console → Prop) {items : List ι}
    {body : ι → PUnit → Session (ForInStep PUnit)}
    (h : ∀ item ∈ items, ∀ round console, keeps console → ∃ after, keeps after ∧
      outcome (body item round) context console = (.ok (.yield ⟨⟩), after))
    (hconsole : keeps console) : ∃ after, keeps after ∧
      outcome (forIn items ⟨⟩ body) context console = (.ok ⟨⟩, after) := by
  induction items generalizing console with
  | nil => exact ⟨console, hconsole, rfl⟩
  | cons item rest ih =>
      obtain ⟨hitem, hrest⟩ := List.forall_mem_cons.1 h
      obtain ⟨between, hbetween, hround⟩ := hitem ⟨⟩ console hconsole
      obtain ⟨after, hafter, hloop⟩ := ih hrest hbetween
      refine ⟨after, hafter, ?_⟩
      rw [List.forIn_cons, outcome_bind hround]
      exact hloop

theorem outcome_for_in_same {ι : Type} {items : List ι} {body : ι → PUnit → Session (ForInStep PUnit)}
    (h : ∀ item ∈ items, ∀ round,
      outcome (body item round) context console = (.ok (.yield ⟨⟩), console)) :
    outcome (forIn items ⟨⟩ body) context console = (.ok ⟨⟩, console) := by
  have hround : ∀ item ∈ items, ∀ round between, between = console → ∃ after, after = console ∧
      outcome (body item round) context between = (.ok (.yield ⟨⟩), after) := by
    rintro item hitem round _ rfl
    exact ⟨_, rfl, h item hitem round⟩
  obtain ⟨_, rfl, hloop⟩ := outcome_for_in (· = console) hround rfl
  exact hloop

/-- What looks at the console first goes on with the console that is there. -/
theorem outcome_get_bind (next : Console → Session α) (context : Context) (console : Console) :
    outcome (get >>= next) context console = outcome (next console) context console := rfl

/-- Reporting changes nothing but the error output. -/
theorem outcome_emit (logged : Logged α) (context : Context) (console : Console) : ∃ errors,
    outcome (emit logged) context console = (.ok logged.value, { console with errors }) := by
  have hloop : ∃ after, (∃ errors, after = { console with errors }) ∧
      outcome (forIn logged.entries PUnit.unit fun entry _ => do
        complain ((← get).router.report (entry.at context.time))
        pure (.yield PUnit.unit)) context console = (.ok PUnit.unit, after) := by
    refine outcome_for_in _ (fun entry _ _ => ?_) ⟨console.errors, rfl⟩
    rintro _ ⟨errors, rfl⟩
    exact ⟨_, ⟨_, rfl⟩, rfl⟩
  obtain ⟨_, ⟨errors, rfl⟩, hloop⟩ := hloop
  refine ⟨errors, ?_⟩
  unfold emit
  rw [outcome_bind rfl]
  dsimp only
  rw [outcome_bind hloop]
  rfl

/-- Changing files changes nothing but the files. -/
theorem outcome_change_files {ε : Type} (toFailure : ε → Failure)
    (action : ExceptT ε (StateM FileTree) α) (context : Context) (console : Console) :
    outcome (changeFiles toFailure action) context console =
      ((FileAction.outcome action console.tree).1.mapError fun fault => .failed (toFailure fault),
        { console with tree := (FileAction.outcome action console.tree).2 }) := by
  unfold changeFiles FileAction.outcome
  rw [outcome_bind rfl]
  rcases action.run.run console.tree with ⟨outcome, tree⟩
  cases outcome <;> rfl

end Session

open Session

variable {context : Context} {console : Console}

/-! ## Command lines with usable values -/

/-- Whether a word may be used as a path where a file is asked for, or where a directory is. What it
leads to must be of that kind if it is there, and the system must be able to tell. -/
def PathUsable (tree : FileTree) (wantsDirectory : Bool) (word : Text) : Prop :=
  match findNamed tree word with
  | .ok .directory => wantsDirectory = true
  | .ok (.file _) => wantsDirectory = false
  | .error (.refused _ _) => True
  | .error _ => False

/-- Whether a word may be used as the value of a switch. -/
def ValueUsable (tree : FileTree) (key : Key) (word : Text) : Prop :=
  match key with
  | .config | .output => PathUsable tree false word
  | .outputDirectory => PathUsable tree true word
  | .indent => ∃ indent, indentOf word = .ok indent
  | _ => True

/-- Whether a line does not ask for help and its switches have values that may be used. -/
structure Usable (tree : FileTree) (line : Line Key) : Prop where
  noHelp : line.has .help = false
  values : ∀ key word, line.value? key = some word → ValueUsable tree key word

theorem outcome_check_path {verb : Option Verb} {switch : Switch Key} {word : Text}
    (h : PathUsable console.tree (switch.key = .outputDirectory) word) :
    outcome (checkPath verb switch word) context console = (.ok (), console) := by
  obtain ⟨key, names, value, help⟩ := switch
  unfold PathUsable at h
  unfold checkPath
  rw [outcome_bind rfl]
  dsimp only at h ⊢
  cases hfound : findNamed console.tree word with
  | ok item =>
      rw [hfound] at h
      cases item with
      | file content => cases key <;> first | rfl | cases h
      | directory => cases key <;> first | rfl | cases h
  | error fault =>
      rw [hfound] at h
      cases fault with
      | refused cause path => cases key <;> rfl
      | nullCharacter => cases h
      | unencodable fault => cases h

theorem outcome_check_switch {verb : Option Verb} {switch : Switch Key} {word : Text}
    (h : ValueUsable console.tree switch.key word) :
    outcome (checkSwitch verb switch word) context console = (.ok (), console) := by
  obtain ⟨key, names, value, help⟩ := switch
  cases key with
  | config => exact outcome_check_path h
  | output => exact outcome_check_path h
  | outputDirectory => exact outcome_check_path h
  | indent =>
      obtain ⟨indent, hindent⟩ := h
      unfold checkSwitch
      dsimp only
      rw [hindent]
      rfl
  | verbose => rfl
  | force => rfl
  | help => rfl

theorem outcome_check_line (verb : Option Verb) (switches : List (Switch Key)) {line : Line Key}
    (h : Usable console.tree line) :
    outcome (checkLine verb switches line) context console = (.ok (), console) := by
  unfold checkLine
  rw [h.noHelp, if_neg Bool.false_ne_true]
  refine (outcome_bind (outcome_for_in_same fun key _ _ => ?_) _).trans rfl
  cases hswitch : switches.find? (·.key = key) with
  | none => rfl
  | some switch =>
      cases hword : line.value? key with
      | none => rfl
      | some word =>
          have hkey : switch.key = key := by simpa using List.find?_some hswitch
          exact (outcome_bind (outcome_check_switch (hkey ▸ h.values key word hword)) _).trans rfl

/-- A line whose switches have usable values is read. -/
theorem outcome_read_line {verb : Option Verb} {switches : List (Switch Key)} {words : List Text}
    {line : Line Key} (hwords : readWords switches verb.isSome words = .ok line)
    (h : Usable console.tree line) :
    outcome (readLine verb switches words) context console = (.ok line, console) := by
  unfold readLine
  rw [hwords]
  exact (outcome_bind (outcome_check_line verb switches h) _).trans rfl

/-! ## The file that a command is about -/

/-- Whether a word names a file with a content, or the input as which the content comes. -/
def Opens (context : Context) (tree : FileTree) (word : Text) (content : List UInt8) : Prop :=
  if word = Text.ofString "-" then content = context.input
  else findNamed tree word = .ok (.file content)

theorem outcome_open_file {verb : Verb} {place : String} {word : Text} {content : List UInt8}
    (h : Opens context console.tree word content) :
    outcome (openFile verb place word) context console = (.ok content, console) := by
  unfold Opens at h
  unfold openFile
  split at h
  · rename_i hstroke
    rw [if_pos hstroke, h]
    rfl
  · rename_i hstroke
    rw [if_neg hstroke]
    show outcome (get >>= _) context console = _
    rw [outcome_get_bind, h]
    rfl

/-- The line of a command is read with the content of the only argument. -/
theorem outcome_read_command {verb : Verb} {place : String} {words : List Text} {line : Line Key}
    {word : Text} {content : List UInt8} (hplace : verb.argument? = some place)
    (hwords : readWords verb.switches true words = .ok line) (h : Usable console.tree line)
    (hargument : line.arguments = [word]) (hopens : Opens context console.tree word content) :
    outcome (readCommand verb words) context console = (.ok (line, content), console) := by
  unfold readCommand
  rw [outcome_bind (outcome_read_line hwords h), hplace, hargument]
  exact (outcome_bind (outcome_open_file hopens) _).trans rfl

end Command

end ProgramInterface
