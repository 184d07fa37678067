import ProgramInterface.Proofs.FileTree
import ProgramInterface.Proofs.Settings.Load
import ProgramInterface.Proofs.Text.Utf8
import ProgramInterface.Proofs.Yaml.RoundTrip
import ProgramInterface.Settings.Save

/-!
# Loading saved settings

Settings that were loaded with absolute home directories are good and name a settled directory
(`settled_of_load`). What is saved of such settings is read as them (`of_content_written`), so loading
the file gives them again, whatever the home directories then are, unless the file is too large to be
loaded at all (`load_saved`).
-/

namespace ProgramInterface

namespace Settings

variable {home : Homes} {settings : Settings}

/-! ## What is loaded -/

/-- Whether the directory of some settings is read from its text as it is. -/
def Settled (settings : Settings) : Prop :=
  ∀ directory ∈ settings.output.directory, directory.WellFormed ∧ ¬ directory.BeginsWithTilde

theorem settled_default : Settings.default.Settled := nofun

section
variable (hhome : home.WellFormed) (habsolute : home.AreAbsolute)
include hhome habsolute

theorem settled_of_directory {value : Yaml.Value} {found : Option Path}
    (h : value.toDirectory home = .ok found) :
    ∀ directory ∈ found, directory.WellFormed ∧ ¬ directory.BeginsWithTilde := by
  unfold Yaml.Value.toDirectory at h
  split at h
  · cases h
    exact nofun
  · split at h
    · split at h
      · rename_i hexpand
        cases h
        rintro _ ⟨⟩
        exact Homes.expand_settled hhome habsolute (Path.well_formed_of_text _) hexpand
      · cases h
      · cases h
    · cases h
    · cases h

theorem settled_of_sections {root : Yaml.Members} (h : ofSections home root = .ok settings) :
    settings.Settled := by
  rw [of_sections_eq] at h
  obtain ⟨generation, _, h⟩ := exists_of_bind_eq_ok h
  obtain ⟨output, houtput, h⟩ := exists_of_bind_eq_ok h
  obtain ⟨logging, _, h⟩ := exists_of_bind_eq_ok h
  cases h
  obtain ⟨members, _, houtput⟩ := exists_of_bind_eq_ok houtput
  obtain ⟨indent, _, houtput⟩ := exists_of_bind_eq_ok houtput
  obtain ⟨directory, hdirectory, houtput⟩ := exists_of_bind_eq_ok houtput
  cases houtput
  unfold directoryOf at hdirectory
  split at hdirectory
  · cases hdirectory
    exact nofun
  · exact settled_of_directory hhome habsolute hdirectory

theorem settled_of_value {value : Yaml.Value} (h : (ofValue home value).value = .ok settings) :
    settings.Settled := by
  cases value with
  | null =>
      cases h
      exact settled_default
  | mapping root =>
      rw [value_of_mapping] at h
      exact settled_of_sections hhome habsolute h
  | _ => cases h

theorem settled_of_file_or_default {tree : FileTree} {path : Path}
    (h : (ofFileOrDefault yamlOf home tree path).value = .ok settings) : settings.Settled := by
  unfold ofFileOrDefault at h
  split at h
  · cases h
  · cases h
    exact settled_default
  · rw [Logged.value_bind] at h
    cases hfile : (ofFileWith yamlOf home tree path).value with
    | ok found =>
        rw [hfile] at h
        cases h
        unfold ofFileWith at hfile
        split at hfile
        · cases hfile
        · split at hfile
          · cases hfile
          · exact settled_of_value hhome habsolute hfile
    | error fault =>
        rw [hfile] at h
        dsimp only at h
        split at h
        · cases h
          exact settled_default
        · cases h

end

/-- The check keeps the directory. -/
theorem output_of_check {checked : Settings} (h : settings.check.value = .ok checked) :
    checked.output = settings.output := by
  rw [value_check] at h
  split at h
  · cases h
  · obtain ⟨_, _, h⟩ := exists_of_bind_eq_ok h
    obtain ⟨_, _, h⟩ := exists_of_bind_eq_ok h
    cases h
    rfl

/-- Settings that were loaded come out of the check. -/
theorem check_of_load {environment : Environment} {tree : FileTree} {path : Path}
    (h : (load environment tree path).value = .ok settings) :
    ∃ found, (ofFileOrDefault yamlOf environment.home tree path).value = .ok found ∧
      (environment.apply found).value.check.value = .ok settings := by
  unfold load loadWith at h
  rw [Logged.value_bind] at h
  cases hfile : (ofFileOrDefault yamlOf environment.home tree path).value with
  | error fault =>
      rw [hfile] at h
      cases h
  | ok found =>
      rw [hfile] at h
      cases hcheck : (environment.apply found).value.check.value with
      | error fault =>
          simp only [Logged.value_bind, Logged.value_pure, hcheck] at h
          cases h
      | ok checked =>
          simp only [Logged.value_bind, Logged.value_pure, hcheck] at h
          cases h
          exact ⟨found, rfl, hcheck⟩

theorem good_of_load {environment : Environment} {tree : FileTree} {path : Path}
    (h : (load environment tree path).value = .ok settings) : settings.Good := by
  obtain ⟨_, _, hcheck⟩ := check_of_load h
  exact good_of_check hcheck

/-- Settings that were loaded are good, and name a directory that is read as it is. -/
theorem settled_of_load {environment : Environment} {tree : FileTree} {path : Path}
    (hhome : environment.home.WellFormed) (habsolute : environment.home.AreAbsolute)
    (h : (load environment tree path).value = .ok settings) : settings.Good ∧ settings.Settled := by
  refine ⟨good_of_load h, fun directory hdirectory => ?_⟩
  obtain ⟨found, hfile, hcheck⟩ := check_of_load h
  rw [output_of_check hcheck] at hdirectory
  exact settled_of_file_or_default hhome habsolute hfile directory hdirectory

/-! ## What is saved -/

/-- A file that settings were saved to holds what they are written as. -/
theorem read_of_save {before after : FileTree} {target : Path} {saved : Logged (Except SaveFault Unit)}
    (h : save before target settings = (saved, after)) (hsaved : saved.value = .ok ()) :
    settings.isWritable = true ∧
      after.read target = .ok (FileAction.encoded (Yaml.Output.write settings.toYaml)) := by
  have hfile : FileAction.outcome (saveFile target settings) before = (.ok (), after) := by
    unfold FileAction.outcome
    unfold save at h
    rcases houtcome : (saveFile target settings).run.run before with ⟨outcome, between⟩
    rw [houtcome] at h
    cases outcome with
    | error fault =>
        cases h
        cases hsaved
    | ok _ =>
        cases h
        rfl
  obtain ⟨_, made, _, hfile⟩ := FileAction.outcome_bind_eq_ok hfile
  by_cases hwritable : settings.isWritable = true
  · rw [if_pos hwritable, FileAction.outcome_adapt] at hfile
    rcases hwrite : FileAction.outcome
      (FileAction.write target (Yaml.Output.write settings.toYaml)) made with ⟨outcome, written⟩
    rw [hwrite] at hfile
    cases outcome with
    | error fault => cases hfile
    | ok _ =>
        cases hfile
        exact ⟨hwritable, FileAction.read_of_write hwrite⟩
  · rw [if_neg hwritable] at hfile
    obtain ⟨_, _, _, hfile⟩ := FileAction.outcome_bind_eq_ok hfile
    cases hfile

theorem scalar_of_int {value : Int} (hvalue : 0 ≤ value) (h : IntegerText.fits value = true) :
    (Yaml.Output.int value).IsScalar := by
  obtain ⟨n, rfl⟩ := Int.eq_ofNat_of_zero_le hvalue
  exact .int n h

theorem scalar_of_directory (directory : Option Path) :
    (directory.elim Yaml.Output.null fun path => .text path.text).IsScalar := by
  cases directory with
  | none => exact .null
  | some path => exact .text path.text

/-- The names of the sections and of the settings in them. -/
def names : List String :=
  ["generation", "error_code_threshold", "structural_generics", "output", "indent", "directory",
    "logging", "level", "json_format"]

/-- Each name is read as it is written. -/
theorem member_name {name : String} (h : name ∈ names) {rest : List (Text × Yaml.Output)}
    (hnew : ∀ member ∈ rest, member.1 ≠ name) : Yaml.IsMemberName name.toList rest := by
  have hnames : ∀ name ∈ names, name.toList ≠ [] ∧
      (∀ c ∈ name.toList, Yaml.Scanner.isKeyChar c = true) ∧
      name.toList.length ≤ Yaml.keyLimit ∧ Yaml.implicitTag name = .str := by
    decide +kernel
  obtain ⟨hne, hkey, hlength, htag⟩ := hnames name h
  exact ⟨⟨hne, hkey, hlength⟩, htag, hnew⟩

/-- A section of two settings can be written and read again. -/
theorem writable_section {first second : String} {v w : Yaml.Output} (hfirst : first ∈ names)
    (hsecond : second ∈ names) (hne : second ≠ first) (hv : v.IsScalar) (hw : w.IsScalar) :
    Yaml.Writable 1 [(first, v), (second, w)] := by
  have hnew : ∀ member ∈ [((second : Text), w)], member.1 ≠ first :=
    List.forall_mem_singleton.2 (Text.of_string_injective.ne hne)
  exact .scalar (member_name hfirst hnew) hv (by decide)
    (.scalar (member_name hsecond (List.forall_mem_nil _)) hw (by decide) .nil)

/-- Good settings with few enough digits can be written and read again. -/
theorem writable_to_yaml (hgood : settings.Good) (h : settings.isWritable = true) :
    Yaml.Writable 0 settings.toYaml := by
  obtain ⟨hthreshold, hindent⟩ := Bool.and_eq_true_iff.1 h
  have hgeneration : Yaml.Writable 1 [("error_code_threshold", .int settings.generation.threshold),
      ("structural_generics", .bool settings.generation.structural)] :=
    writable_section (by decide) (by decide) (by decide)
      (scalar_of_int hgood.threshold hthreshold) (.bool _)
  have houtput : Yaml.Writable 1 [("indent", .int settings.output.indent),
      ("directory", settings.output.directory.elim .null fun path => .text path.text)] :=
    writable_section (by decide) (by decide) (by decide)
      (scalar_of_int hgood.least hindent) (scalar_of_directory _)
  have hlogging : Yaml.Writable 1 [("level", .text settings.logging.level),
      ("json_format", .bool settings.logging.json)] :=
    writable_section (by decide) (by decide) (by decide) (.text _) (.bool _)
  refine .mapping (member_name (by decide) ?_) (List.cons_ne_nil _ _) hgeneration ?_
  · simp [Text.of_string_injective.eq_iff]
  refine .mapping (member_name (by decide) ?_) (List.cons_ne_nil _ _) houtput ?_
  · simp [Text.of_string_injective.eq_iff]
  exact .mapping (member_name (by decide) (List.forall_mem_nil _)) (List.cons_ne_nil _ _) hlogging .nil

/-! ## What is read -/

theorem plain_lines_eq {chars : List Char} (h : '\r' ∉ chars) : plainLines chars = chars := by
  induction chars with
  | nil => rfl
  | cons c rest ih =>
      have hc : c ≠ '\r' := (List.ne_of_not_mem_cons h).symm
      have hplain : plainLines (c :: rest) = c :: plainLines rest := by
        rw [plainLines]
        · rintro _ rfl
          exact absurd rfl hc
        · exact hc
      rw [hplain, ih (List.not_mem_of_not_mem_cons h)]

theorem yaml_of_written {chars : List Char} {value : Yaml.Value}
    (hchars : ∀ c ∈ chars, Yaml.isWritten c = true) (hread : Yaml.read chars = .ok value) :
    yamlOf (FileAction.encoded (Text.ofChars chars)) = .ok value := by
  have hencoded : FileAction.encoded (Text.ofChars chars) = Utf8.encodeChars chars := by
    have hscalar : CodePoint.char? ∘ CodePoint.scalar = some := rfl
    rw [FileAction.encoded, Text.ofChars, List.filterMap_map, hscalar, List.filterMap_some]
  have hplain : ∀ c ∈ chars, c.toNat < 0x80 := fun c hc => by
    obtain rfl | hrange := Yaml.written_bounds (hchars c hc)
    · decide
    · omega
  have hreturn : '\r' ∉ chars := fun hmem => absurd (hchars '\r' hmem) (by decide)
  rw [yamlOf, hencoded, Utf8.decode_blocks_encode hplain]
  show (Yaml.read (plainLines chars)).mapError ReadFault.yaml = _
  rw [plain_lines_eq hreturn, hread]
  rfl

theorem to_directory_text {directory : Path} (hform : directory.WellFormed)
    (hplain : ¬ directory.BeginsWithTilde) (home : Homes) :
    (Yaml.Value.text directory.text).toDirectory home = .ok (some directory) := by
  have hempty : (Yaml.Value.text directory.text).isEmpty = false :=
    List.isEmpty_eq_false_iff.2 (Path.text_ne_nil hform)
  rw [Yaml.Value.toDirectory, hempty, if_neg Bool.false_ne_true, Path.of_text_text hform,
    Homes.expand_of_plain hplain]

/-- The members of a mapping are found by their names. -/
theorem member_cons (name key : String) (value : Yaml.Value) (members : Yaml.Members) :
    Yaml.Value.member? name ((.text key, value) :: members) =
      if key = name then some value else Yaml.Value.member? name members := by
  rw [Yaml.Value.member?]
  simp only [Text.of_string_injective.eq_iff]

/-- Settings are read from their members. -/
theorem of_sections_written (h : settings.Settled) (home : Homes) :
    ofSections home (Yaml.memberValues settings.toYaml) = .ok settings := by
  obtain ⟨⟨threshold, structural⟩, ⟨indent, directory⟩, ⟨level, json⟩⟩ := settings
  have hdirectory : (directory.elim Yaml.Output.null fun path => .text path.text).value.toDirectory
      home = .ok directory := by
    cases directory with
    | none => rfl
    | some directory => exact to_directory_text (h _ rfl).1 (h _ rfl).2 home
  rw [of_sections_eq]
  simp only [toYaml, Yaml.memberValues, Yaml.Output.value, generationOf, outputOf, loggingOf,
    directoryOf, levelOf, Yaml.sectionOf, Yaml.integerOf, Yaml.flagOf, member_cons, String.reduceEq,
    reduceIte, Yaml.ok_bind, hdirectory]
  rfl

/-- What settled settings are written as holds them. -/
theorem of_content_written (hgood : settings.Good) (hsettled : settings.Settled)
    (hwritable : settings.isWritable = true)
    (hsize : (FileAction.encoded (Yaml.Output.write settings.toYaml)).length ≤ ReadFault.sizeLimit)
    (home : Homes) :
    ofContent yamlOf home (FileAction.encoded (Yaml.Output.write settings.toYaml)) =
      pure (.ok settings) := by
  obtain ⟨chars, hwrite, hchars, hread⟩ :=
    Yaml.read_write (writable_to_yaml hgood hwritable) (List.cons_ne_nil _ _)
  rw [hwrite] at hsize ⊢
  rw [ofContent, valueOf, if_neg (Nat.not_lt.2 hsize), yaml_of_written hchars hread]
  show ofValue home (.mapping (Yaml.memberValues settings.toYaml)) = _
  have hkeys : (Yaml.memberValues settings.toYaml).map (·.1) = sectionNames.map Yaml.Value.text := rfl
  rw [ofValue, hkeys, of_sections_written hsettled]
  rfl

/-! ## Loading again -/

/-- The entry that reports that a file was used. -/
def loadedEntry (path : Path) : Log.Entry :=
  ⟨.debug, settingsPart, "Loaded config from " ++ path.text, []⟩

/-- The check reports nothing graver than that types are taken apart. -/
theorem level_of_check {entry : Log.Entry} (h : entry ∈ settings.check.entries) :
    entry.level = .info := by
  unfold check at h
  rw [Logged.entries_bind] at h
  rcases List.mem_append.1 h with h | h
  · unfold GenerationSettings.check at h
    split at h
    · cases h
    · split at h
      · cases List.mem_singleton.1 h
        rfl
      · cases h
  · split at h <;> cases h

section
variable {tree : FileTree} {path : Path} {content : List UInt8} (hread : tree.read path = .ok content)
  (hcontent : ofContent yamlOf home content = pure (.ok settings))
include hread hcontent

/-- Good settings in a file are loaded without variables as they are. -/
theorem load_bare (hgood : settings.Good) : (load (.bare home) tree path).value = .ok settings := by
  have hvalue : (ofContent yamlOf (Environment.bare home).home content).value = .ok settings :=
    congrArg Logged.value hcontent
  rw [load, load_of_content hread hvalue]
  show settings.check.value.mapError _ = _
  rw [hgood.value_check]
  rfl

theorem entries_load_bare :
    (load (.bare home) tree path).entries = loadedEntry path :: settings.check.entries := by
  have hfile : ofFileOrDefault yamlOf home tree path = ⟨.ok settings, [loadedEntry path]⟩ := by
    simp only [ofFileOrDefault, holds_of_read hread, of_file_of_read hread, hcontent]
    rfl
  rw [load, loadWith, Logged.entries_bind, show (Environment.bare home).home = home from rfl, hfile]
  show [loadedEntry path] ++ ([] ++ (settings.check.entries ++ [])) = _
  simp

end

end Settings

/-- Settings that were loaded and saved are loaded again from the file, if it is not too large, without
variables and whatever the home directories then are. The file is used and nothing is warned of, so the
default settings do not take the place of what it holds. -/
theorem load_saved {environment : Environment} {tree : FileTree} {path : Path} {settings : Settings}
    (hhome : environment.home.WellFormed) (habsolute : environment.home.AreAbsolute)
    (hload : (Settings.load environment tree path).value = .ok settings)
    {before after : FileTree} {target : Path} {saved : Logged (Except SaveFault Unit)}
    (hsave : Settings.save before target settings = (saved, after))
    (hsaved : saved.value = .ok ()) :
    ∃ content, after.read target = .ok content ∧
      (content.length ≤ ReadFault.sizeLimit → ∀ home,
        (Settings.load (.bare home) after target).value = .ok settings ∧
        Settings.loadedEntry target ∈ (Settings.load (.bare home) after target).entries ∧
        ∀ entry ∈ (Settings.load (.bare home) after target).entries, entry.level ≠ .warning) := by
  obtain ⟨hgood, hsettled⟩ := Settings.settled_of_load hhome habsolute hload
  obtain ⟨hwritable, hread⟩ := Settings.read_of_save hsave hsaved
  refine ⟨_, hread, fun hsize home => ?_⟩
  have hcontent := Settings.of_content_written hgood hsettled hwritable hsize home
  rw [Settings.load_bare hread hcontent hgood, Settings.entries_load_bare hread hcontent]
  refine ⟨rfl, List.mem_cons_self, List.forall_mem_cons.2 ⟨nofun, fun entry hentry => ?_⟩⟩
  rw [Settings.level_of_check hentry]
  nofun

/-- The tree with a settings file whose directory begins in the home directory and holds a comment
sign. -/
def treeWithDirectory : FileTree :=
  treeWithSettings "output:\n  directory: '~/# a'"

/-- The settings in that file. -/
def settingsWithDirectory : Settings :=
  { Settings.default with output := ⟨2, some (Path.ofText "/# a")⟩ }

/-- A directory that needs quotes is loaded, saved and loaded again. -/
theorem load_saved_directory : ∃ saved after,
    (Settings.load bareRoot treeWithDirectory rootFile).value = .ok settingsWithDirectory ∧
      Settings.save treeWithDirectory rootFile settingsWithDirectory = (saved, after) ∧
      (Settings.load bareRoot after rootFile).value = .ok settingsWithDirectory := by
  have hload : (Settings.load bareRoot treeWithDirectory rootFile).value =
      .ok settingsWithDirectory := by
    have htest : (Settings.load bareRoot treeWithDirectory rootFile).value.toOption =
        some settingsWithDirectory := by decide +kernel
    cases hvalue : (Settings.load bareRoot treeWithDirectory rootFile).value with
    | ok settings =>
        rw [hvalue] at htest
        rw [Option.some.inj htest]
    | error fault =>
        rw [hvalue] at htest
        cases htest
  have htest : (Settings.save treeWithDirectory rootFile settingsWithDirectory).1.value.isOk = true ∧
      ((Settings.save treeWithDirectory rootFile settingsWithDirectory).2.read rootFile).toOption.all
        (·.length ≤ ReadFault.sizeLimit) = true := by decide +kernel
  have hhome : bareRoot.home.WellFormed := List.forall_mem_nil _
  have habsolute : bareRoot.home.AreAbsolute := ⟨by decide, nofun⟩
  rcases hsave : Settings.save treeWithDirectory rootFile settingsWithDirectory with
    ⟨⟨outcome, entries⟩, after⟩
  rw [hsave] at htest
  obtain ⟨hsaved, hshort⟩ := htest
  cases outcome with
  | error fault => cases hsaved
  | ok _ =>
      obtain ⟨content, hread, hagain⟩ := load_saved hhome habsolute hload hsave rfl
      dsimp only at hshort
      rw [hread] at hshort
      exact ⟨_, after, hload, rfl, (hagain (of_decide_eq_true hshort) _).1⟩

end ProgramInterface
