import ProgramInterface.Proofs.Settings.Check
import ProgramInterface.Proofs.Settings.Read

/-!
# What loading settings ends in

Loading should end in good settings, or in a fault that tells which setting is out of range
(`EndsWell`). With a file that can be read it does, unless the content of the file has a fault that is
not forgiven, or a number that is out of range is too long for its fault to be told
(`load_outcome`). A content with any other fault leaves the default settings in place, with a
warning.
-/

namespace ProgramInterface

/-- What loading should end in. -/
inductive EndsWell : Except LoadFault Settings → Prop
  | loaded {settings : Settings} (hgood : settings.Good) : EndsWell (.ok settings)
  | rejected {fault : SettingsFault} (htold : fault ≠ .unwritable) :
      EndsWell (.error (.invalid fault))

theorem ends_well_check {settings : Settings} :
    EndsWell (settings.check.value.mapError .invalid) ↔ ¬ settings.IsUnshowable := by
  rw [← Settings.check_eq_unwritable]
  cases hcheck : settings.check.value with
  | ok checked => exact iff_of_true (.loaded (Settings.good_of_check hcheck)) nofun
  | error fault =>
      constructor
      · rintro (_ | htold) heq
        exact htold (Except.error.inj heq)
      · exact fun htold => .rejected fun heq => htold (congrArg Except.error heq)

namespace Settings

theorem good_default : Settings.default.Good :=
  ⟨by decide, by decide, by decide, by decide⟩

theorem good_of_map_check {settings checked : Settings}
    (h : settings.check.value.mapError LoadFault.invalid = .ok checked) : checked.Good := by
  cases hcheck : settings.check.value with
  | ok found =>
      rw [hcheck] at h
      cases h
      exact good_of_check hcheck
  | error fault =>
      rw [hcheck] at h
      cases h

theorem map_check_ne_unread {settings : Settings} {fault : ReadFault} :
    settings.check.value.mapError LoadFault.invalid ≠ .error (.unread fault) := by
  cases settings.check.value <;> nofun

/-- The warning that a file is not used. -/
def fallbackWarning (path : Path) (fault : ReadFault) : Log.Entry :=
  ⟨.warning, settingsPart,
    "Failed to load config from " ++ path.text ++ Text.ofString ": " ++ fault.message, []⟩

theorem holds_of_read {tree : FileTree} {path : Path} {content : List UInt8}
    (h : tree.read path = .ok content) : tree.holds path = .ok true := by
  unfold FileTree.read at h
  unfold FileTree.holds
  cases hfind : tree.find path with
  | error fault =>
      rw [hfind] at h
      cases h
  | ok item => rfl

section
variable {environment : Environment} {tree : FileTree} {path : Path} {content : List UInt8}
  {reader : Reader} (hread : tree.read path = .ok content)
include hread

/-- A content that holds settings has them changed by the variables and checked. -/
theorem load_of_content {settings : Settings}
    (h : (ofContent reader environment.home content).value = .ok settings) :
    (loadWith reader environment tree path).value =
      (environment.apply settings).value.check.value.mapError .invalid := by
  simp only [loadWith, ofFileOrDefault, holds_of_read hread, of_file_of_read hread,
    Logged.value_bind, h, Logged.value_pure]

/-- A fault that is not forgiven is what loading ends in. -/
theorem load_of_escapes {fault : ReadFault}
    (h : Escapes (ofContent reader environment.home content).value fault) :
    (loadWith reader environment tree path).value = .error (.unread fault) := by
  simp [loadWith, ofFileOrDefault, holds_of_read hread, of_file_of_read hread, h.1, h.2]

/-- In place of a content with a fault that is forgiven the default settings are used. -/
theorem load_of_forgiven {fault : ReadFault}
    (h : (ofContent reader environment.home content).value = .error fault)
    (hforgiven : fault.isForgiven = true) :
    (loadWith reader environment tree path).value = .ok (environment.apply Settings.default).value ∧
      fallbackWarning path fault ∈ (loadWith reader environment tree path).entries := by
  have hfile : (ofFileOrDefault reader environment.home tree path).value = .ok Settings.default := by
    simp [ofFileOrDefault, holds_of_read hread, of_file_of_read hread, h, hforgiven]
  constructor
  · have hgood := environment.good_apply good_default
    simp only [loadWith, Logged.value_bind, hfile, Logged.value_pure, hgood.value_check]
    rfl
  · refine List.mem_append_left _ ?_
    simp [ofFileOrDefault, holds_of_read hread, of_file_of_read hread, h, hforgiven,
      fallbackWarning]

end

end Settings

/-- With a file that can be read, loading ends well if and only if the content has no fault that is not
forgiven and no number that is out of range and too long to be shown, in whatever way its text is read
as a YAML value. Settings that come out are good, faults of the content that come out are those that
are not forgiven, and in place of a content with another fault the default settings are used with a
warning. -/
theorem load_outcome (reader : Settings.Reader) (environment : Environment) {tree : FileTree}
    {path : Path} {content : List UInt8} (hread : tree.read path = .ok content) :
    (EndsWell (Settings.loadWith reader environment tree path).value ↔
      (∀ fault, ¬ Uncaught reader environment.home content fault) ∧
      ∀ settings, (Settings.ofContent reader environment.home content).value = .ok settings →
        ¬ (environment.apply settings).value.IsUnshowable) ∧
    (∀ settings, (Settings.loadWith reader environment tree path).value = .ok settings →
      settings.Good) ∧
    (∀ fault, (Settings.loadWith reader environment tree path).value = .error (.unread fault) ↔
      Uncaught reader environment.home content fault) ∧
    (∀ fault, (Settings.ofContent reader environment.home content).value = .error fault →
      ¬ Uncaught reader environment.home content fault →
      ∃ settings, (Settings.loadWith reader environment tree path).value = .ok settings ∧
        settings = (environment.apply Settings.default).value ∧
        Settings.fallbackWarning path fault ∈
          (Settings.loadWith reader environment tree path).entries) := by
  cases hcontent : (Settings.ofContent reader environment.home content).value with
  | ok settings =>
      -- What is left to go wrong is a number that is out of range and cannot be shown.
      have hcaught := not_uncaught_of_ok hcontent
      rw [Settings.load_of_content hread hcontent, ends_well_check]
      refine ⟨?_, fun _ => Settings.good_of_map_check,
        fun fault => iff_of_false Settings.map_check_ne_unread (hcaught fault), nofun⟩
      simp only [hcaught, not_false_iff, implies_true, true_and, Except.ok.injEq, forall_eq']
  | error first =>
      cases hforgiven : first.isForgiven with
      | true =>
          have hcaught := not_uncaught_of_forgiven hcontent hforgiven
          have hgood := environment.good_apply Settings.good_default
          obtain ⟨hload, hwarning⟩ := Settings.load_of_forgiven hread hcontent hforgiven
          rw [hload]
          refine ⟨iff_of_true (.loaded hgood) ⟨hcaught, nofun⟩, ?_,
            fun fault => iff_of_false nofun (hcaught fault), ?_⟩
          · rintro settings ⟨⟩
            exact hgood
          · rintro fault ⟨⟩ _
            exact ⟨_, rfl, rfl, hwarning⟩
      | false =>
          have hescapes : Escapes (Settings.ofContent reader environment.home content).value first :=
            ⟨hcontent, hforgiven⟩
          have huncaught := escapes_content.1 hescapes
          rw [Settings.load_of_escapes hread hescapes]
          refine ⟨iff_of_false nofun fun h => h.1 first huncaught, nofun, fun fault => ?_, ?_⟩
          · rw [← escapes_content, hcontent, escapes_error]
            simp [hforgiven, eq_comm]
          · rintro fault ⟨⟩ hcaught
            exact absurd huncaught hcaught

/-- The settings file at the root. -/
def rootFile : Path :=
  Path.ofText "/config.yaml"

/-- The bytes of a text. -/
def bytesOf (text : String) : List UInt8 :=
  Utf8.encodeChars text.toList

/-- The tree whose only file is a settings file at the root. -/
def treeWithSettings (text : String) : FileTree :=
  ⟨[], [(["config.yaml"], .file (bytesOf text))]⟩

/-- No variables, and the root as the only home directory. -/
def bareRoot : Environment :=
  .bare (Homes.ofPath ⟨.absolute, []⟩)

/-- The tree without files, seen from the root. -/
def noFiles : FileTree :=
  .empty []

theorem load_no_files :
    (Settings.load bareRoot noFiles (Settings.defaultFile bareRoot.home)).value =
      .ok Settings.default :=
  rfl

/-- A settings file that is not a mapping leaves the default settings in place. -/
theorem load_outcome_not_mapping : ∃ settings,
    (Settings.load bareRoot (treeWithSettings "- 600") rootFile).value = .ok settings ∧
      settings.Good ∧ settings = (bareRoot.apply Settings.default).value ∧
      Settings.fallbackWarning rootFile .notMapping ∈
        (Settings.load bareRoot (treeWithSettings "- 600") rootFile).entries := by
  have hcontent : (Settings.ofContent Settings.yamlOf bareRoot.home (bytesOf "- 600")).value =
      .error .notMapping := by
    have htest : ((Settings.ofContent Settings.yamlOf bareRoot.home (bytesOf "- 600")).value matches
        .error .notMapping) = true := by decide +kernel
    revert htest
    generalize (Settings.ofContent Settings.yamlOf bareRoot.home (bytesOf "- 600")).value = outcome
    intro htest
    match outcome, htest with
    | .error .notMapping, _ => rfl
  have hread : (treeWithSettings "- 600").read rootFile = .ok (bytesOf "- 600") := rfl
  have hcaught := not_uncaught_of_forgiven hcontent rfl .notMapping
  obtain ⟨_, hgood, _, hforgiven⟩ := load_outcome Settings.yamlOf bareRoot hread
  obtain ⟨settings, hload, hdefault, hwarning⟩ := hforgiven _ hcontent hcaught
  exact ⟨settings, hload, hgood settings hload, hdefault, hwarning⟩

/-- With an infinite threshold loading does not end well. -/
theorem infinite_threshold_uncaught :
    ¬ EndsWell (Settings.load bareRoot
      (treeWithSettings "generation: \x7berror_code_threshold: .inf\x7d") rootFile).value := by
  have hunread : ((Settings.load bareRoot
      (treeWithSettings "generation: \x7berror_code_threshold: .inf\x7d") rootFile).value matches
      .error (.unread .infinite)) = true := by decide +kernel
  intro h
  revert hunread
  generalize (Settings.load bareRoot _ rootFile).value = outcome at h
  cases h <;> nofun

end ProgramInterface
