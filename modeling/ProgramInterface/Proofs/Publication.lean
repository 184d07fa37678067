import Mathlib.Data.List.Flatten
import ProgramInterface.Generate
import ProgramInterface.Proofs.Catalogue.ProgramName
import ProgramInterface.Proofs.Description.Failure
import ProgramInterface.Proofs.Grammar.SourceNodes
import ProgramInterface.Proofs.Storage
import ProgramInterface.Settings.Basic

/-!
# Publishing one description after another

A description of a source is published as one file directly in the directory that was asked for, since
the name of a program is one name of a path (`written_of_run`). Directories stay where they are, so
a path leads to the same place whenever it is followed later. After any number of descriptions the
place of each holds the text that was put there last, and nothing else has changed but that directories
were made (`publications_confined`).
-/

namespace ProgramInterface

/-! ## Directories of files -/

namespace FileTree

/-- A text in an address is an address. -/
theorem IsAddress.sublist {long short : Text} (h : IsAddress long) (hsub : short.Sublist long) :
    IsAddress short where
  handed := by
    obtain ⟨hbytes, hnull⟩ := handing_fault_eq_none.1 h.handed
    exact handing_fault_eq_none.2 ⟨fun c hc => hbytes c (hsub.subset hc), mt (hsub.subset ·) hnull⟩
  short := by
    have hchars := ((hsub.filterMap CodePoint.char?).flatMap String.utf8EncodeChar).length_le
    exact Nat.lt_of_le_of_lt (Nat.add_le_add hchars hsub.countP_le) h.short

/-- A path of one name in a directory leads directly into the place of that directory. -/
theorem locate_in_directory {tree : FileTree} {directory : Path} {name : Text} {place : Place}
    (hpoint : .scalar '.' ∈ name) (hname : name ≠ Text.ofString "..")
    (h : tree.locate (directory ++ (⟨.relative, [name]⟩ : Path)) = .ok place) :
    ∃ above, tree.locate directory = .ok above ∧ tree.item? above = some .directory ∧
      place = above ++ [name] := by
  obtain ⟨haddress, hwalk⟩ := locate_eq_ok.1 h
  obtain ⟨above, habove, hitem, hplace⟩ := walk_snoc hname hwalk
  have hdirectory := haddress.sublist (Path.text_sublist hpoint directory)
  exact ⟨above, locate_eq_ok.2 ⟨hdirectory, habove⟩, hitem, hplace⟩

end FileTree

/-! ## One publication -/

/-- A description that is to be published in a directory. -/
structure Publication where
  document : Document
  directory : Path
  indent : Int

namespace Publication

/-- Whether the description is that of a source. -/
def IsGenerated (publication : Publication) : Prop :=
  ∃ settings source, generate settings source = .ok publication.document

/-- The path of the file. -/
def file (publication : Publication) : Path :=
  publication.document.fileIn publication.directory

/-- The name of the file. -/
def fileName (publication : Publication) : Text :=
  publication.document.name ++ Text.ofString ".json"

/-- What publishing gives, and the tree afterwards. -/
def run (tree : FileTree) (publication : Publication) :
    Except PublishFault Path × FileTree :=
  let (result, after) :=
    publication.document.publish tree publication.directory publication.indent
  (result.value, after)

/-- A publication that succeeded: one file directly in the directory holds the text of the
description, and nothing else is changed but that directories were made. -/
structure Written (publication : Publication) (before after : FileTree) (above : Place)
    (text : Text) : Prop where
  text_eq : publication.document.fileText? publication.indent = some text
  locate_directory : after.locate publication.directory = .ok above
  directory : after.item? above = some .directory
  locate_file : after.locate publication.file = .ok (above ++ [publication.fileName])
  item : after.item? (above ++ [publication.fileName]) = some (.file (FileAction.encoded text))
  kept : ∀ other ≠ above ++ [publication.fileName], FileTree.KeptAt before after other

end Publication

namespace Document

variable {before after : FileTree} {directory path : Path} {indent : Int} {document : Document}

theorem outcome_of_publish (h : (document.publish before directory indent).1.value = .ok path)
    (hafter : (document.publish before directory indent).2 = after) :
    FileAction.outcome (do
        ExceptT.adapt .file (FileAction.makeDirectory directory)
        document.writeFile (document.fileIn directory) indent) before = (.ok (), after) := by
  dsimp only [publish] at h hafter
  split at h
  rename_i outcome last hrun
  rw [hrun] at hafter
  cases outcome with
  | error fault => cases h
  | ok _ => exact hafter ▸ hrun

theorem adapt_eq_ok {α : Type} {wrap : FileTree.Fault → PublishFault} {action : FileAction α}
    {tree next : FileTree} {a : α}
    (h : FileAction.outcome (ExceptT.adapt wrap action) tree = (.ok a, next)) :
    FileAction.outcome action tree = (.ok a, next) := by
  rw [FileAction.outcome_adapt] at h
  rcases houtcome : FileAction.outcome action tree with ⟨result, last⟩
  rw [houtcome] at h
  cases result with
  | error fault => cases h
  | ok _ =>
      cases h
      rfl

/-- A publication that succeeds makes the directory, and then empties the file and fills it. -/
theorem publish_eq_ok (h : (document.publish before directory indent).1.value = .ok path)
    (hafter : (document.publish before directory indent).2 = after) :
    ∃ made place text,
      FileAction.outcome (FileAction.makeDirectory directory) before = (.ok (), made) ∧
      document.fileText? indent = some text ∧
      made.locate (document.fileIn directory) = .ok place ∧
      made.item? place ≠ some .directory ∧
      after = (made.put place (.file [])).put place (.file (FileAction.encoded text)) := by
  obtain ⟨_, made, hmake, hwrite⟩ :=
    FileAction.outcome_bind_eq_ok (outcome_of_publish h hafter)
  unfold writeFile at hwrite
  split at hwrite
  · rename_i text htext
    obtain ⟨place, hlocate, hplace, hput⟩ := FileAction.write_eq_ok (adapt_eq_ok hwrite)
    exact ⟨made, place, text, adapt_eq_ok hmake, htext, hlocate, hplace, hput⟩
  · obtain ⟨_, _, _, hthrow⟩ := FileAction.outcome_bind_eq_ok hwrite
    cases hthrow

end Document

namespace Publication

variable {publication : Publication} {before after : FileTree} {path : Path}

/-- The description of a source has the name of a program of that source. -/
theorem program_name_of_generate {settings : GenerationSettings} {source : Source}
    {document : Document} (h : generate settings source = .ok document) :
    ∃ root, source.parse = .ok root ∧ document.name.IsProgramName root := by
  obtain ⟨root, hparse, hdescribe⟩ := generate_eq_ok.1 h
  obtain ⟨_, rfl⟩ := describe_eq_some.1 hdescribe
  exact ⟨root, hparse, program_name_cases root⟩

/-- The file of a description of a source has one name, seen from the directory. -/
theorem file_eq (h : publication.IsGenerated) :
    publication.file =
      publication.directory ++ (⟨.relative, [publication.fileName]⟩ : Path) := by
  obtain ⟨settings, source, hgenerate⟩ := h
  obtain ⟨root, hparse, hname⟩ := program_name_of_generate hgenerate
  rw [file, Document.fileIn, hname.path (parse_regular hparse)]
  rfl

theorem file_name_ne_up (publication : Publication) :
    publication.fileName ≠ Text.ofString ".." := by
  intro hup
  have hlength := congrArg List.length hup
  have hending : (Text.ofString ".json").length = 5 := rfl
  have htwo : (Text.ofString "..").length = 2 := rfl
  rw [fileName, List.length_append, hending, htwo] at hlength
  omega

theorem point_mem_file_name (publication : Publication) :
    .scalar '.' ∈ publication.fileName :=
  List.mem_append_right _ (List.mem_cons_self ..)

/-- What a publication of a description of a source does if it succeeds. -/
theorem written_of_run (hgenerated : publication.IsGenerated)
    (h : publication.run before = (.ok path, after)) :
    before.Extends after ∧ ∃ above text, publication.Written before after above text := by
  obtain ⟨hvalue, hafter⟩ := Prod.mk.inj h
  obtain ⟨made, place, text, hmake, htext, hlocate, hplace, rfl⟩ :=
    Document.publish_eq_ok hvalue hafter
  have hadds := FileAction.make_directory_adds publication.directory before
  have hextends := FileAction.make_directory_extends publication.directory before
  rw [hmake] at hadds hextends
  -- Emptying and filling the file leaves every directory where it is.
  have hempty : (made.put place (.file [])).item? place ≠ some .directory := by
    rw [FileTree.item_put_self hplace]
    nofun
  have hmade := (FileTree.Extends.put hplace (.file [])).trans
    (.put hempty (.file (FileAction.encoded text)))
  have hfile : made.locate publication.file = .ok place := hlocate
  rw [file_eq hgenerated] at hfile
  obtain ⟨above, habove, hdirectory, rfl⟩ := FileTree.locate_in_directory
    (point_mem_file_name publication) (file_name_ne_up publication) hfile
  exact ⟨hextends.trans hmade, above, text, {
    text_eq := htext
    locate_directory := hmade.locate habove
    directory := hmade.directories above hdirectory
    locate_file := hmade.locate hlocate
    item := FileTree.item_put_self hempty
    kept := fun other hother => by
      rw [FileTree.KeptAt, FileTree.item_put_of_ne hother, FileTree.item_put_of_ne hother]
      exact hadds other }⟩

/-! ## Many publications -/

/-- Publishes one description after the other for as long as that succeeds; gives the tree
afterwards. -/
def runAll (tree : FileTree) : List Publication → Except PublishFault FileTree
  | [] => .ok tree
  | publication :: rest =>
    match publication.run tree with
    | (.ok _, after) => runAll after rest
    | (.error fault, _) => .error fault

variable {publications earlier later : List Publication}

theorem run_all_cons
    (h : runAll before (publication :: later) = .ok after) :
    ∃ path between, publication.run before = (.ok path, between) ∧
      runAll between later = .ok after := by
  rw [runAll] at h
  split at h
  · rename_i path between hrun
    exact ⟨path, between, hrun, h⟩
  · cases h

theorem run_all_append (h : runAll before (earlier ++ later) = .ok after) :
    ∃ between, runAll before earlier = .ok between ∧ runAll between later = .ok after := by
  induction earlier generalizing before with
  | nil => exact ⟨before, rfl, h⟩
  | cons first rest ih =>
      obtain ⟨path, next, hrun, hrest⟩ := run_all_cons h
      obtain ⟨between, hbetween, hlater⟩ := ih hrest
      refine ⟨between, ?_, hlater⟩
      rw [runAll, hrun]
      exact hbetween

/-- A run keeps directories in their places and everything else that none of its files is put at. -/
theorem kept_of_run_all (hgenerated : ∀ publication ∈ publications, publication.IsGenerated)
    (h : runAll before publications = .ok after) :
    before.Extends after ∧
      ∀ place, (∀ publication ∈ publications, after.locate publication.file ≠ .ok place) →
        FileTree.KeptAt before after place := by
  induction publications generalizing before with
  | nil =>
      cases h
      exact ⟨.refl _, fun _ _ => .inl rfl⟩
  | cons first rest ih =>
      obtain ⟨path, between, hrun, hrest⟩ := run_all_cons h
      obtain ⟨hfirst, above, text, hwritten⟩ := written_of_run (hgenerated first (.head _)) hrun
      obtain ⟨hlater, hkept⟩ := ih (fun p hp => hgenerated p (.tail _ hp)) hrest
      refine ⟨hfirst.trans hlater, fun place hplace => ?_⟩
      -- The first file still has its place at the end, so the place in question is another one.
      have hother : place ≠ above ++ [first.fileName] := by
        rintro rfl
        exact hplace first (.head _) (hlater.locate hwritten.locate_file)
      exact (hwritten.kept place hother).trans (hkept place fun p hp => hplace p (.tail _ hp))

/-- Files of descriptions of sources are written directly into the directories that were asked for,
and the last one that is put at a place counts. Each description has the name of a program of its
source, and its publication succeeds in a tree `between` and leaves a tree `next`. At the end its file
has the same place, and the place holds its text unless a later file was put there. What stands at a
place at which no file was put is as it was before. -/
theorem publications_confined
    (hgenerated : ∀ publication ∈ publications, publication.IsGenerated)
    (h : runAll before publications = .ok after) :
    (∀ publication ∈ publications, ∃ settings source root,
      generate settings source = .ok publication.document ∧ source.parse = .ok root ∧
        publication.document.name.IsProgramName root) ∧
    (∀ earlier publication later, publications = earlier ++ publication :: later →
      ∃ between next above text,
        runAll before earlier = .ok between ∧
        publication.run between = (.ok publication.file, next) ∧
        publication.Written between next above text ∧
        after.locate publication.directory = .ok above ∧
        after.locate publication.file = .ok (above ++ [publication.fileName]) ∧
        ((∀ other ∈ later, after.locate other.file ≠ .ok (above ++ [publication.fileName])) →
          after.item? (above ++ [publication.fileName]) =
            some (.file (FileAction.encoded text)))) ∧
    ∀ place, (∀ publication ∈ publications, after.locate publication.file ≠ .ok place) →
      FileTree.KeptAt before after place := by
  refine ⟨fun publication hmem => ?_, ?_, (kept_of_run_all hgenerated h).2⟩
  · obtain ⟨settings, source, hgenerate⟩ := hgenerated publication hmem
    obtain ⟨root, hparse, hname⟩ := program_name_of_generate hgenerate
    exact ⟨settings, source, root, hgenerate, hparse, hname⟩
  · rintro earlier publication later rfl
    obtain ⟨between, hearlier, hrest⟩ := run_all_append h
    obtain ⟨path, next, hrun, hlater⟩ := run_all_cons hrest
    have hpath : path = publication.file := Document.path_of_publish (Prod.mk.inj hrun).1
    subst hpath
    obtain ⟨_, above, text, hwritten⟩ := written_of_run (hgenerated publication (by simp)) hrun
    obtain ⟨hextends, hkept⟩ := kept_of_run_all
      (fun p hp => hgenerated p (by simp [hp])) hlater
    refine ⟨between, next, above, text, hearlier, hrun, hwritten,
      hextends.locate hwritten.locate_directory, hextends.locate hwritten.locate_file, fun hlast => ?_⟩
    -- The later publications keep what stands at the place, and a file stands there.
    obtain hsame | ⟨hnone, _⟩ := hkept _ hlast
    · exact hsame.trans hwritten.item
    · cases hwritten.item.symm.trans hnone

/-- The description of a source under the settings that hold by default, to be published in a
directory. -/
def ofSource? (source directory : String) : Option Publication :=
  (generate Settings.default.generation (.text (Text.ofString source))).toOption.map fun document =>
    ⟨document, Path.ofText (Text.ofString directory), Settings.default.output.indent⟩

theorem is_generated_of_source {source directory : String}
    (h : ofSource? source directory = some publication) : publication.IsGenerated := by
  obtain ⟨document, hdocument, rfl⟩ := Option.map_eq_some_iff.1 h
  refine ⟨Settings.default.generation, .text (Text.ofString source), ?_⟩
  cases hgenerate : generate Settings.default.generation (.text (Text.ofString source)) with
  | error fault =>
      rw [hgenerate] at hdocument
      cases hdocument
  | ok found =>
      rw [hgenerate] at hdocument
      cases hdocument
      rfl

/-- Two publications of different sources of one program name, in one directory with two spellings,
and the tree after both of them. -/
def colliding? : Option ((Publication × Publication) × FileTree) := do
  let first ← ofSource? "mod vault \x7b fn process_instruction() \x7b\x7d \x7d" "out"
  let second ← ofSource? "fn process_instruction() \x7b\x7d mod vault;" "out/../out"
  let after ← (runAll (.empty []) [first, second]).toOption
  if (after.locate first.file).toOption = (after.locate second.file).toOption then
    return ((first, second), after)
  none

/-- Both files have the same place, and there the second one counts. -/
theorem publications_confined_colliding :
    ∃ first second after, colliding? = some ((first, second), after) ∧
      runAll (.empty []) [first, second] = .ok after ∧
      (after.locate first.file).toOption = (after.locate second.file).toOption ∧
      ∃ above text, second.document.fileText? second.indent = some text ∧
        after.locate second.file = .ok (above ++ [second.fileName]) ∧
        after.item? (above ++ [second.fileName]) = some (.file (FileAction.encoded text)) := by
  have hcolliding : colliding?.isSome = true := by decide +kernel
  obtain ⟨⟨⟨first, second⟩, after⟩, h⟩ := Option.isSome_iff_exists.1 hcolliding
  have hsteps := h
  unfold colliding? at hsteps
  obtain ⟨_, hfirst, hsteps⟩ := Option.bind_eq_some_iff.1 hsteps
  obtain ⟨_, hsecond, hsteps⟩ := Option.bind_eq_some_iff.1 hsteps
  obtain ⟨_, hrun, hsteps⟩ := Option.bind_eq_some_iff.1 hsteps
  split at hsteps
  · rename_i hsame
    cases hsteps
    have hok : runAll (.empty []) [first, second] = .ok after := by
      cases hall : runAll (.empty []) [first, second] with
      | error fault =>
          rw [hall] at hrun
          cases hrun
      | ok found =>
          rw [hall] at hrun
          cases hrun
          rfl
    have hgenerated : ∀ publication ∈ [first, second], publication.IsGenerated :=
      List.forall_mem_cons.2 ⟨is_generated_of_source hfirst,
        List.forall_mem_singleton.2 (is_generated_of_source hsecond)⟩
    obtain ⟨_, _, above, text, _, _, hwritten, _, hlocate, hlast⟩ :=
      (publications_confined hgenerated hok).2.1 [first] second [] rfl
    exact ⟨first, second, after, h, hok, hsame, above, text, hwritten.text_eq, hlocate,
      hlast nofun⟩
  · cases hsteps

end Publication

end ProgramInterface
