import ProgramInterface.Proofs.Settings.RoundTrip
import ProgramInterface.Publish

/-!
# Files after a write

Settings are saved and descriptions are published in the same way: a directory is made, the target
file is emptied, and what is to be stored is written. If the target cannot be emptied, no file changes.
If it is emptied and there is something in what is to be stored that cannot be written, it stays empty
and no other file changes (`write_outcome`).
-/

namespace ProgramInterface

namespace FileTree

variable {before between after tree : FileTree} {place : Place} {path : Path}

/-! ## Trees with more directories -/

/-- Whether what stands at a place is what stood there, or a directory where nothing stood. -/
def KeptAt (before after : FileTree) (place : Place) : Prop :=
  after.item? place = before.item? place ∨
    (before.item? place = none ∧ after.item? place = some .directory)

/-- Whether a tree differs from the one before in directories only that were made. -/
def AddsDirectories (before after : FileTree) : Prop :=
  ∀ place, KeptAt before after place

/-- Whether a tree differs from the one before in directories that were made and in the file at a path,
which has a given content now. -/
def ReplacesFile (before after : FileTree) (path : Path) (content : List UInt8) : Prop :=
  ∃ place, after.locate path = .ok place ∧ after.item? place = some (.file content) ∧
    before.item? place ≠ some .directory ∧ ∀ other ≠ place, KeptAt before after other

theorem AddsDirectories.refl (tree : FileTree) : tree.AddsDirectories tree :=
  fun _ => .inl rfl

theorem KeptAt.trans (h : KeptAt before between place) (hnext : KeptAt between after place) :
    KeptAt before after place := by
  obtain hsame | ⟨hnone, hmade⟩ := hnext
  · obtain hfirst | ⟨hnone, hmade⟩ := h
    · exact .inl (hsame.trans hfirst)
    · exact .inr ⟨hnone, hsame.trans hmade⟩
  · obtain hfirst | ⟨_, hfound⟩ := h
    · exact .inr ⟨hfirst.symm.trans hnone, hmade⟩
    · cases hnone.symm.trans hfound

theorem AddsDirectories.trans (h : before.AddsDirectories between)
    (hnext : between.AddsDirectories after) : before.AddsDirectories after :=
  fun place => (h place).trans (hnext place)

theorem AddsDirectories.put (h : tree.item? place = none) :
    tree.AddsDirectories (tree.put place .directory) := by
  intro other
  by_cases hother : other = place
  · rw [hother]
    refine .inr ⟨h, item_put_self ?_⟩
    rw [h]
    nofun
  · exact .inl (item_put_of_ne hother)

theorem ReplacesFile.read {content : List UInt8} (h : before.ReplacesFile after path content) :
    after.read path = .ok content := by
  obtain ⟨place, hlocate, hitem, _⟩ := h
  rw [FileTree.read, find_of_item hlocate hitem]
  rfl

/-- A file is replaced if it alone is changed after directories were made. -/
theorem ReplacesFile.of_made {made : FileTree} {content : List UInt8}
    (h : before.AddsDirectories made) (hplace : made.item? place ≠ some .directory)
    (hlocate : after.locate path = .ok place) (hitem : after.item? place = some (.file content))
    (hothers : ∀ other ≠ place, after.item? other = made.item? other) :
    before.ReplacesFile after path content := by
  refine ⟨place, hlocate, hitem, ?_, fun other hother => ?_⟩
  · obtain hsame | ⟨_, hmade⟩ := h place
    · rwa [← hsame]
    · exact absurd hmade hplace
  · rw [KeptAt, hothers other hother]
    exact h other

theorem ReplacesFile.put {made : FileTree} (h : before.AddsDirectories made)
    (hlocate : made.locate path = .ok place) (hplace : made.item? place ≠ some .directory)
    (content : List UInt8) : before.ReplacesFile (made.put place (.file content)) path content :=
  .of_made h hplace (locate_put hplace hlocate) (item_put_self hplace) fun _ => item_put_of_ne

/-- Of two files that are put at one place the last one counts. -/
theorem ReplacesFile.put_put {made : FileTree} (h : before.AddsDirectories made)
    (hlocate : made.locate path = .ok place) (hplace : made.item? place ≠ some .directory)
    (first content : List UInt8) :
    before.ReplacesFile ((made.put place (.file first)).put place (.file content)) path content := by
  have hfirst : (made.put place (.file first)).item? place ≠ some .directory := by
    rw [item_put_self hplace]
    nofun
  exact .of_made h hplace (locate_put hfirst (locate_put hplace hlocate)) (item_put_self hfirst)
    fun _ hother => (item_put_of_ne hother).trans (item_put_of_ne hother)

/-- Whether a path leads to a place where a file is or can be. -/
def Opens (tree : FileTree) (path : Path) : Prop :=
  ∃ place, tree.locate path = .ok place ∧ tree.item? place ≠ some .directory

end FileTree

namespace FileAction

variable {ε α β : Type} {action : ExceptT ε (StateM FileTree) α} {tree : FileTree} {path : Path}

/-! ## Steps of actions -/

theorem outcome_try_catch (action : ExceptT ε (StateM FileTree) α)
    (handler : ε → ExceptT ε (StateM FileTree) α) (tree : FileTree) :
    outcome (tryCatch action handler) tree =
      match outcome action tree with
      | (.ok a, between) => (.ok a, between)
      | (.error fault, between) => outcome (handler fault) between := by
  show (ExceptT.tryCatch action handler).run.run tree = _
  rw [ExceptT.tryCatch, ExceptT.run_mk, StateT.run_bind]
  rcases houtcome : outcome action tree with ⟨result, between⟩
  have hrun : StateT.run action tree = (result, between) := houtcome
  rw [hrun]
  cases result <;> rfl

/-! ## Actions that make directories only -/

/-- Whether all that an action does to a tree keeps to a relation between trees. -/
def Follows (relation : FileTree → FileTree → Prop) (action : ExceptT ε (StateM FileTree) α) :
    Prop :=
  ∀ tree, relation tree (outcome action tree).2

/-- A relation between trees that doing nothing, doing one thing after another and making a directory
keep to. -/
structure AllowsDirectories (relation : FileTree → FileTree → Prop) : Prop where
  refl : ∀ tree, relation tree tree
  trans : ∀ {before between after}, relation before between → relation between after →
    relation before after
  put : ∀ {tree place}, FileTree.item? place tree = none →
    relation tree (tree.put place .directory)

section

variable {relation : FileTree → FileTree → Prop} (hrelation : AllowsDirectories relation)
include hrelation

theorem Follows.bind {next : α → ExceptT ε (StateM FileTree) β} (h : Follows relation action)
    (hnext : ∀ a, Follows relation (next a)) : Follows relation (action >>= next) := by
  intro tree
  have hfirst := h tree
  rw [outcome_bind]
  rcases houtcome : outcome action tree with ⟨result, between⟩
  rw [houtcome] at hfirst
  cases result with
  | ok a => exact hrelation.trans hfirst (hnext a between)
  | error fault => exact hfirst

theorem Follows.try_catch {handler : ε → ExceptT ε (StateM FileTree) α}
    (h : Follows relation action) (hhandler : ∀ fault, Follows relation (handler fault)) :
    Follows relation (tryCatch action handler) := by
  intro tree
  have hfirst := h tree
  rw [outcome_try_catch]
  rcases houtcome : outcome action tree with ⟨result, between⟩
  rw [houtcome] at hfirst
  cases result with
  | ok a => exact hfirst
  | error fault => exact hrelation.trans hfirst (hhandler fault between)

theorem make_one_follows (path : Path) : Follows relation (makeOne path) := by
  intro tree
  rw [makeOne, outcome_bind, outcome_ask]
  cases tree.locate path with
  | error fault => exact hrelation.refl tree
  | ok place =>
      dsimp only
      rw [outcome_get_bind]
      cases hitem : tree.item? place with
      | some item => exact hrelation.refl tree
      | none => exact hrelation.put hitem

theorem unless_directory_follows (path : Path) (fault : FileTree.Fault) :
    Follows relation (unlessDirectory path fault) := by
  intro tree
  cases fault with
  | refused cause text =>
      show relation tree (outcome (if tree.isDirectory path then return
        else throw (FileTree.Fault.refused cause text)) tree).2
      cases tree.isDirectory path <;> exact hrelation.refl tree
  | nullCharacter => exact hrelation.refl tree
  | unencodable fault => exact hrelation.refl tree

/-- One directory after the other is made, from the outermost on. -/
theorem make_at_follows (root : PathRoot) (names : List Text) :
    Follows relation (makeAt root names) := by
  induction names with
  | nil =>
      exact .try_catch hrelation (make_one_follows hrelation _)
        (unless_directory_follows hrelation _)
  | cons name above ih =>
      refine .try_catch hrelation (make_one_follows hrelation _) fun fault => ?_
      split
      · exact .bind hrelation ih fun _ => .try_catch hrelation (make_one_follows hrelation _)
          (unless_directory_follows hrelation _)
      · exact unless_directory_follows hrelation _ _

theorem make_directory_follows (path : Path) : Follows relation (makeDirectory path) :=
  make_at_follows hrelation path.root path.names.reverse

end

theorem make_directory_adds (path : Path) :
    Follows FileTree.AddsDirectories (makeDirectory path) :=
  make_directory_follows ⟨.refl, .trans, .put⟩ path

theorem make_directory_extends (path : Path) : Follows FileTree.Extends (makeDirectory path) :=
  make_directory_follows ⟨.refl, .trans, fun h => .put (h ▸ nofun) .directory⟩ path

/-! ## Writing -/

theorem outcome_clear_open {place : Place} (hlocate : tree.locate path = .ok place)
    (hplace : tree.item? place ≠ some .directory) :
    outcome (clear path) tree = (.ok place, tree.put place (.file [])) := by
  rw [clear, outcome_bind, outcome_ask, hlocate]
  dsimp only
  rw [outcome_get_bind]
  split
  · exact absurd ‹_› hplace
  · rfl

theorem outcome_clear_refused (h : ¬ tree.Opens path) :
    ∃ fault, outcome (clear path) tree = (.error fault, tree) := by
  rw [clear, outcome_bind, outcome_ask]
  cases hlocate : tree.locate path with
  | error fault => exact ⟨fault, rfl⟩
  | ok place =>
      have hplace : tree.item? place = some .directory := by
        by_contra hplace
        exact h ⟨place, hlocate, hplace⟩
      dsimp only
      rw [outcome_get_bind, hplace]
      exact ⟨_, rfl⟩

theorem outcome_write_open {place : Place} {content : Text}
    (hlocate : tree.locate path = .ok place) (hplace : tree.item? place ≠ some .directory)
    (hcontent : content.WellFormed) :
    outcome (write path content) tree =
      (.ok (), (tree.put place (.file [])).put place (.file (encoded content))) := by
  rw [write, outcome_bind, outcome_clear_open hlocate hplace, Utf8.encode_fault_eq_none.2 hcontent]
  rfl

/-- A text that cannot be encoded leaves an empty file. -/
theorem outcome_write_unencodable {place : Place} {content : Text}
    (hlocate : tree.locate path = .ok place) (hplace : tree.item? place ≠ some .directory)
    (hcontent : ¬ content.WellFormed) :
    ∃ fault, outcome (write path content) tree = (.error fault, tree.put place (.file [])) := by
  rw [write, outcome_bind, outcome_clear_open hlocate hplace]
  cases hfault : Utf8.encodeFault? content with
  | none => exact absurd (Utf8.encode_fault_eq_none.1 hfault) hcontent
  | some fault => exact ⟨_, rfl⟩

theorem outcome_write_refused (h : ¬ tree.Opens path) (content : Text) :
    ∃ fault, outcome (write path content) tree = (.error fault, tree) := by
  obtain ⟨fault, hclear⟩ := outcome_clear_refused h
  rw [write, outcome_bind, hclear]
  exact ⟨fault, rfl⟩

/-! ## Storing a text -/

/-- Stores a text in a file. Where there is no text to store, the file is emptied and that is a
fault. -/
def fill (wrap : FileTree.Fault → ε) (unwritable : ε) (path : Path) :
    Option Text → ExceptT ε (StateM FileTree) Unit
  | some text => ExceptT.adapt wrap (write path text)
  | none => do
    let _ ← ExceptT.adapt wrap (clear path)
    throw unwritable

/-- Makes a directory and stores a text in a file. -/
def store (wrap : FileTree.Fault → ε) (unwritable : ε) (directory path : Path)
    (content : Option Text) : ExceptT ε (StateM FileTree) Unit := do
  ExceptT.adapt wrap (makeDirectory directory)
  fill wrap unwritable path content

/-- Whether there is a text to store that can be encoded. -/
def IsStorable (content : Option Text) : Prop :=
  ∃ text, content = some text ∧ text.WellFormed

section

variable (wrap : FileTree.Fault → ε) (unwritable : ε) {content : Option Text} {place : Place}

theorem outcome_fill_refused (h : ¬ tree.Opens path) (content : Option Text) :
    ∃ fault, outcome (fill wrap unwritable path content) tree = (.error fault, tree) := by
  cases content with
  | some text =>
      obtain ⟨fault, hwrite⟩ := outcome_write_refused h text
      rw [fill, outcome_adapt, hwrite]
      exact ⟨wrap fault, rfl⟩
  | none =>
      obtain ⟨fault, hclear⟩ := outcome_clear_refused h
      rw [fill, outcome_bind, outcome_adapt, hclear]
      exact ⟨wrap fault, rfl⟩

theorem outcome_fill_stored (hlocate : tree.locate path = .ok place)
    (hplace : tree.item? place ≠ some .directory) {text : Text} (htext : text.WellFormed) :
    outcome (fill wrap unwritable path (some text)) tree =
      (.ok (), (tree.put place (.file [])).put place (.file (encoded text))) := by
  rw [fill, outcome_adapt, outcome_write_open hlocate hplace htext]
  rfl

theorem outcome_fill_lost (hlocate : tree.locate path = .ok place)
    (hplace : tree.item? place ≠ some .directory) (hcontent : ¬ IsStorable content) :
    ∃ fault, outcome (fill wrap unwritable path content) tree =
      (.error fault, tree.put place (.file [])) := by
  cases content with
  | some text =>
      have htext : ¬ text.WellFormed := fun htext => hcontent ⟨text, rfl, htext⟩
      obtain ⟨fault, hwrite⟩ := outcome_write_unencodable hlocate hplace htext
      rw [fill, outcome_adapt, hwrite]
      exact ⟨wrap fault, rfl⟩
  | none =>
      rw [fill, outcome_bind, outcome_adapt, outcome_clear_open hlocate hplace]
      exact ⟨unwritable, rfl⟩

end

end FileAction

/-- Whether a directory can be made so that a path then leads to a place where a file is or can be. -/
def FileTree.Admits (tree : FileTree) (directory path : Path) : Prop :=
  ∃ made, FileAction.outcome (FileAction.makeDirectory directory) tree = (.ok (), made) ∧
    made.Opens path

/-- What becomes of the files in a write: it succeeds if the target can be emptied and there is a text
to store that can be encoded. Then the target holds the text. Without the first no file changes, and
without the second alone the target is emptied. No other file changes. -/
structure WriteOutcome (before after : FileTree) (directory path : Path) (content : Option Text)
    (succeeded : Prop) : Prop where
  succeeds_iff : succeeded ↔ before.Admits directory path ∧ FileAction.IsStorable content
  stored : before.Admits directory path → ∀ text, content = some text → text.WellFormed →
    before.ReplacesFile after path (FileAction.encoded text)
  kept : ¬ before.Admits directory path → before.AddsDirectories after
  emptied : before.Admits directory path → ¬ FileAction.IsStorable content →
    before.ReplacesFile after path []

/-- A write whose target cannot be emptied fails and changes no file. -/
theorem WriteOutcome.refused {before after : FileTree} {directory path : Path} {succeeded : Prop}
    (hnot : ¬ before.Admits directory path) (hfailed : ¬ succeeded)
    (hadds : before.AddsDirectories after) (content : Option Text) :
    WriteOutcome before after directory path content succeeded where
  succeeds_iff := iff_of_false hfailed fun hboth => hnot hboth.1
  stored := fun hadmits => absurd hadmits hnot
  kept := fun _ => hadds
  emptied := fun hadmits => absurd hadmits hnot

/-- A write changes its target at most. -/
theorem WriteOutcome.adds_or_replaces {before after : FileTree} {directory path : Path}
    {content : Option Text} {succeeded : Prop}
    (h : WriteOutcome before after directory path content succeeded) :
    before.AddsDirectories after ∨ ∃ stored, before.ReplacesFile after path stored := by
  by_cases hadmits : before.Admits directory path
  · by_cases hcontent : FileAction.IsStorable content
    · obtain ⟨text, hsome, htext⟩ := hcontent
      exact .inr ⟨_, h.stored hadmits text hsome htext⟩
    · exact .inr ⟨_, h.emptied hadmits hcontent⟩
  · exact .inl (h.kept hadmits)

namespace FileAction

theorem store_outcome {ε : Type} (wrap : FileTree.Fault → ε) (unwritable : ε)
    {directory path : Path} {content : Option Text} {before after : FileTree}
    {result : Except ε Unit}
    (h : outcome (store wrap unwritable directory path content) before = (result, after)) :
    WriteOutcome before after directory path content (result = .ok ()) := by
  have hadds := make_directory_adds directory before
  rw [store, outcome_bind, outcome_adapt] at h
  -- A write is refused if the directory cannot be made or the path cannot be opened in it; otherwise
  -- the target is empty by the time the content counts.
  rcases hmake : outcome (makeDirectory directory) before with ⟨way, made⟩
  rw [hmake] at h hadds
  cases way with
  | error fault =>
      have hnot : ¬ before.Admits directory path := fun ⟨_, hmade, _⟩ => by
        cases hmake.symm.trans hmade
      cases h
      exact .refused hnot nofun hadds content
  | ok _ =>
      change outcome (fill wrap unwritable path content) made = (result, after) at h
      by_cases hopens : made.Opens path
      · have hadmits : before.Admits directory path := ⟨made, hmake, hopens⟩
        obtain ⟨place, hlocate, hplace⟩ := hopens
        by_cases hcontent : IsStorable content
        · obtain ⟨text, rfl, htext⟩ := hcontent
          rw [outcome_fill_stored wrap unwritable hlocate hplace htext] at h
          cases h
          refine ⟨iff_of_true rfl ⟨hadmits, text, rfl, htext⟩, ?_, fun hnot => absurd hadmits hnot,
            fun _ hnot => absurd ⟨text, rfl, htext⟩ hnot⟩
          rintro _ _ ⟨⟩ _
          exact .put_put hadds hlocate hplace _ _
        · obtain ⟨fault, hfill⟩ := outcome_fill_lost wrap unwritable hlocate hplace hcontent
          rw [hfill] at h
          cases h
          exact ⟨iff_of_false nofun fun hboth => hcontent hboth.2,
            fun _ text htext hplain => absurd ⟨text, htext, hplain⟩ hcontent,
            fun hnot => absurd hadmits hnot, fun _ _ => .put hadds hlocate hplace _⟩
      · have hnot : ¬ before.Admits directory path := fun ⟨_, hmade, hopen⟩ => by
          cases hmake.symm.trans hmade
          exact hopens hopen
        obtain ⟨fault, hfill⟩ := outcome_fill_refused wrap unwritable hopens content
        rw [hfill] at h
        cases h
        exact .refused hnot nofun hadds content

/-- A text that is written to a file in a directory that is made first is stored there. -/
theorem write_in_outcome (before : FileTree) (directory path : Path) (text : Text) :
    let written := outcome (do
      makeDirectory directory
      write path text) before
    WriteOutcome before written.2 directory path (some text) (written.1 = .ok ()) := by
  intro written
  -- With faults that are kept as they are, storing a text is making the directory and writing.
  have hplain : ∀ (action : FileAction Unit) tree,
      outcome (ExceptT.adapt id action) tree = outcome action tree := by
    intro action tree
    rw [outcome_adapt]
    rcases outcome action tree with ⟨result, after⟩
    cases result <;> rfl
  refine store_outcome id .nullCharacter ?_
  rw [store, outcome_bind, hplain]
  show _ = outcome (makeDirectory directory >>= fun _ => write path text) before
  rw [outcome_bind]
  rcases outcome (makeDirectory directory) before with ⟨result, made⟩
  cases result with
  | ok _ => exact hplain _ made
  | error fault => rfl

end FileAction

/-! ## Settings and descriptions -/

namespace Settings

/-- The text that settings are saved as. -/
def fileText? (settings : Settings) : Option Text :=
  if settings.isWritable then some (Yaml.Output.write settings.toYaml) else none

theorem save_file_eq (path : Path) (settings : Settings) :
    saveFile path settings =
      FileAction.store .file .unwritable path.parent path settings.fileText? := by
  unfold saveFile FileAction.store fileText?
  cases settings.isWritable <;> rfl

/-- Good settings can be stored if their numbers are short enough. -/
theorem is_storable_iff {settings : Settings} (h : settings.Good) :
    FileAction.IsStorable settings.fileText? ↔ settings.isWritable = true := by
  constructor
  · rintro ⟨text, htext, _⟩
    by_contra hwritable
    rw [fileText?, if_neg hwritable] at htext
    cases htext
  · intro hwritable
    obtain ⟨chars, hwrite, _⟩ := Yaml.read_write (writable_to_yaml h hwritable) (List.cons_ne_nil _ _)
    rw [fileText?, if_pos hwritable]
    exact ⟨_, rfl, hwrite ▸ Text.well_formed_of_chars chars⟩

/-- Saving settings is storing their text. -/
theorem save_outcome (before : FileTree) (path : Path) (settings : Settings) :
    WriteOutcome before (settings.save before path).2 path.parent path settings.fileText?
      ((settings.save before path).1.value = .ok ()) := by
  unfold save
  rw [save_file_eq]
  rcases houtcome : (FileAction.store SaveFault.file .unwritable path.parent path
    settings.fileText?).run.run before with ⟨outcome, after⟩
  have hstore := FileAction.store_outcome _ _ houtcome
  cases outcome <;> simpa using hstore

end Settings

namespace Document

/-- Publishing a description is storing its text. -/
theorem publish_outcome (before : FileTree) (directory : Path) (indent : Int)
    (document : Document) :
    WriteOutcome before (document.publish before directory indent).2 directory
      (document.fileIn directory) (document.fileText? indent)
      ((document.publish before directory indent).1.value = .ok (document.fileIn directory)) := by
  have hstore : (do
      ExceptT.adapt .file (FileAction.makeDirectory directory)
      document.writeFile (document.fileIn directory) indent) =
        FileAction.store PublishFault.file .unwritable directory (document.fileIn directory)
          (document.fileText? indent) := by
    unfold FileAction.store writeFile
    cases document.fileText? indent <;> rfl
  dsimp only [publish]
  rw [hstore]
  rcases houtcome : (FileAction.store PublishFault.file .unwritable directory
    (document.fileIn directory) (document.fileText? indent)).run.run before with ⟨outcome, after⟩
  have hstore := FileAction.store_outcome _ _ houtcome
  cases outcome <;> simpa using hstore

theorem path_of_publish {before : FileTree} {directory path : Path} {indent : Int}
    {document : Document} (h : (document.publish before directory indent).1.value = .ok path) :
    path = document.fileIn directory := by
  dsimp only [publish] at h
  split at h
  rename_i outcome after _
  cases outcome with
  | error fault => cases h
  | ok _ =>
      cases h
      rfl

end Document

/-- What becomes of the files when settings that were loaded are saved and when a description is
published. Both succeed if the target can be emptied and what is to be stored can be written: the
settings if their numbers are short enough, the description if its codes are and its texts hold no
surrogate. If the target cannot be emptied, no file changes. Otherwise a write that fails leaves the
target empty. No other file changes in either case. -/
theorem write_outcome (before : FileTree) :
    (∀ environment tree file settings,
      (Settings.load environment tree file).value = .ok settings →
        (FileAction.IsStorable settings.fileText? ↔ settings.isWritable = true) ∧
        ∀ path, WriteOutcome before (settings.save before path).2 path.parent path
          settings.fileText? ((settings.save before path).1.value = .ok ())) ∧
    ∀ directory indent (document : Document),
      WriteOutcome before (document.publish before directory indent).2 directory
        (document.fileIn directory) (document.fileText? indent)
        ((document.publish before directory indent).1.value = .ok (document.fileIn directory)) :=
  ⟨fun _ _ _ settings hload => ⟨Settings.is_storable_iff (Settings.good_of_load hload),
    settings.save_outcome before⟩,
    fun directory indent document => document.publish_outcome before directory indent⟩

/-- A path below the settings file. -/
def pathBelowFile : Path :=
  Path.ofText "/config.yaml/config.yaml"

/-- Settings cannot be saved below a file, which is kept. -/
theorem write_outcome_below_file :
    let before := treeWithSettings "logging: \x7b\x7d"
    (Settings.default.save before pathBelowFile).1.value ≠ .ok () ∧
      before.AddsDirectories (Settings.default.save before pathBelowFile).2 := by
  intro before
  have houtcome := ((write_outcome before).1 _ _ _ _ load_no_files).2 pathBelowFile
  have hnot : ¬ before.Admits pathBelowFile.parent pathBelowFile := by
    rintro ⟨made, hmake, hopens⟩
    have hfails : (FileAction.outcome (FileAction.makeDirectory pathBelowFile.parent) before).1
      matches .error _ := by decide +kernel
    rw [hmake] at hfails
    cases hfails
  exact ⟨fun hsaved => hnot (houtcome.succeeds_iff.1 hsaved).1, houtcome.kept hnot⟩

/-- Settings whose threshold is too long to be written. -/
def longThreshold : Settings :=
  { Settings.default with generation := ⟨IntegerText.decimalBound, false⟩ }

/-- Saving settings with a number that is too long loses what the settings file held. -/
theorem long_threshold_empties_file :
    let before := treeWithSettings "logging: \x7b\x7d"
    before.read rootFile = .ok (bytesOf "logging: \x7b\x7d") ∧
      (longThreshold.save before rootFile).1.value ≠ .ok () ∧
      (longThreshold.save before rootFile).2.read rootFile = .ok [] := by
  intro before
  have houtcome := longThreshold.save_outcome before rootFile
  have hadmits : before.Admits rootFile.parent rootFile :=
    ⟨before, rfl, [Text.ofString "config.yaml"], rfl, nofun⟩
  have hlost : ¬ FileAction.IsStorable longThreshold.fileText? := by
    rintro ⟨text, htext, _⟩
    have hunwritable : longThreshold.isWritable = false := by decide +kernel
    rw [Settings.fileText?, hunwritable] at htext
    cases htext
  exact ⟨rfl, fun hsaved => hlost (houtcome.succeeds_iff.1 hsaved).2,
    (houtcome.emptied hadmits hlost).read⟩

end ProgramInterface
