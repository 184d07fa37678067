import ProgramInterface.Proofs.Number.Digits
import ProgramInterface.Proofs.Settings.Load

/-!
# Which settings prevail

A file is used as a whole or not at all (`Settings.inFile`), and each variable replaces one setting if
it gives a value (`Environment.Replaces`). What comes out of that is checked (`settings_precedence`).
Keys that no section knows make no difference to what a file says (`Yaml.SameKnown`), but a section may
be the whole mapping again, and then knows what is no section (`ignored_key_used`).
-/

namespace ProgramInterface

/-! ## What a file says -/

namespace Settings

/-- The settings in the three sections of a mapping, if all of them can be read. -/
def inMapping? (home : Homes) (root : Yaml.Members) : Option Settings :=
  match generationOf root, outputOf home root, loggingOf root with
  | .ok generation, .ok output, .ok logging => some ⟨generation, output, logging⟩
  | _, _, _ => none

/-- The settings in the content of a file: those in its mapping, or all default ones if it is too
large, is no YAML text, holds no mapping, or has a section that cannot be read. -/
def inContent (reader : Reader) (home : Homes) (content : List UInt8) : Settings :=
  match valueOf reader content with
  | .ok (.mapping root) => (inMapping? home root).getD Settings.default
  | _ => Settings.default

/-- The settings in a file, or all default ones if there is none or it cannot be read. -/
def inFile (reader : Reader) (home : Homes) (tree : FileTree) (path : Path) : Settings :=
  match tree.read path with
  | .ok content => inContent reader home content
  | .error _ => Settings.default

variable {reader : Reader}

theorem in_mapping_eq {home : Homes} {root : Yaml.Members} :
    inMapping? home root = (ofSections home root).toOption := by
  rw [of_sections_eq, inMapping?]
  cases generationOf root with
  | error _ => rfl
  | ok generation =>
      cases outputOf home root with
      | error _ => rfl
      | ok output =>
          cases loggingOf root with
          | error _ => rfl
          | ok logging => rfl

theorem in_content_eq {home : Homes} {content : List UInt8} :
    inContent reader home content =
      (ofContent reader home content).value.toOption.getD Settings.default := by
  unfold inContent ofContent
  cases valueOf reader content with
  | error _ => rfl
  | ok value =>
      cases value with
      | mapping root =>
          show (inMapping? home root).getD Settings.default = _
          rw [value_of_mapping, in_mapping_eq]
      | _ => rfl

/-- A file without faults that are not forgiven is used for the settings in it. -/
theorem value_of_file_or_default {home : Homes} {tree : FileTree} {path : Path}
    (hholds : ∃ found, tree.holds path = .ok found)
    (hcaught : ∀ content fault, tree.read path = .ok content →
      ¬ Uncaught reader home content fault) :
    (ofFileOrDefault reader home tree path).value = .ok (inFile reader home tree path) := by
  obtain ⟨found, hfound⟩ := hholds
  unfold inFile
  cases hread : tree.read path with
  | error fault =>
      cases found with
      | false => simp [ofFileOrDefault, hfound]
      | true =>
          -- A directory stands where the file is looked for; that it cannot be read is forgiven.
          simp [ofFileOrDefault, hfound, ofFileWith, hread, ReadFault.isForgiven]
  | ok content =>
      simp only [in_content_eq, ofFileOrDefault, holds_of_read hread, of_file_of_read hread]
      cases hcontent : (ofContent reader home content).value with
      | ok settings => simp [hcontent, Except.toOption]
      | error fault =>
          have hforgiven : fault.isForgiven = true :=
            Bool.of_not_eq_false fun hescapes =>
              hcaught content fault hread (escapes_content.1 ⟨hcontent, hescapes⟩)
          simp [hcontent, hforgiven, Except.toOption]

end Settings

/-! ## What variables give -/

namespace Environment

/-- A variable gives a number if it is set, readable and in range. -/
structure GivesNumber (inRange : Int → Prop) (raw : Text) (value : Int) : Prop where
  isSet : raw ≠ []
  readable : IntegerText.read 10 raw = .ok value
  inRange : inRange value

/-- A variable gives a level if it is set and names one in any case. -/
structure GivesLevel (raw name : Text) : Prop where
  isSet : raw ≠ []
  known : raw.upper ∈ levelNames
  inUpperCase : name = raw.upper

variable (environment : Environment)

/-- The threshold that its variable gives, if it gives one. -/
def GivesThreshold : Int → Prop :=
  GivesNumber (0 ≤ ·) environment.threshold

/-- The indentation that its variable gives, if it gives one. -/
def GivesIndent : Int → Prop :=
  GivesNumber (fun value => 0 ≤ value ∧ value ≤ 8) environment.indent

/-- A setting is what is given in its place, or as before if nothing is. -/
def Replaced {α : Type} (gives : α → Prop) (old new : α) : Prop :=
  gives new ∨ (∀ value, ¬ gives value) ∧ new = old

/-- Each of three settings is replaced by what its variable gives; the others stay. -/
structure Replaces (file merged : Settings) : Prop where
  threshold : Replaced environment.GivesThreshold file.generation.threshold
    merged.generation.threshold
  indent : Replaced environment.GivesIndent file.output.indent merged.output.indent
  level : Replaced (GivesLevel environment.level) file.logging.level merged.logging.level
  structural : merged.generation.structural = file.generation.structural
  directory : merged.output.directory = file.output.directory
  json : merged.logging.json = file.logging.json

variable {environment}

theorem replaced_iff {α : Type} {given : Option α} {gives : α → Prop}
    (h : ∀ value, given = some value ↔ gives value) {old new : α} :
    Replaced gives old new ↔ new = given.getD old := by
  cases given with
  | none =>
      have hnone : ∀ value, ¬ gives value := fun value hgives => nomatch (h value).2 hgives
      exact ⟨fun hnew => (hnew.resolve_left (hnone new)).2, fun hold => .inr ⟨hnone, hold⟩⟩
  | some value =>
      constructor
      · rintro (hgives | ⟨hnone, -⟩)
        · exact (Option.some.inj ((h new).2 hgives)).symm
        · exact absurd ((h value).1 rfl) (hnone value)
      · rintro rfl
        exact .inl ((h _).1 rfl)

/-- What is given in place of a setting hides what would be bad of it. -/
theorem Replaced.iff_of_good {α : Type} {gives bad : α → Prop} {old new : α}
    (h : Replaced gives old new) (hgood : ∀ value, gives value → ¬ bad value) :
    bad new ↔ bad old ∧ ∀ value, ¬ gives value := by
  rcases h with hgives | ⟨hnone, rfl⟩
  · exact iff_of_false (hgood new hgives) fun hbad => hbad.2 new hgives
  · exact (and_iff_left hnone).symm

theorem value_number {name : String} {isInRange : Int → Bool} {inRange : Int → Prop} {raw : Text}
    (h : ∀ value, isInRange value = true ↔ inRange value) (value : Int) :
    (number name isInRange raw).value = some value ↔ GivesNumber inRange raw value := by
  constructor
  · intro hvalue
    have hrange := (h value).1 (in_range_of_number hvalue)
    unfold number at hvalue
    split at hvalue
    · cases hvalue
    · rename_i hset
      split at hvalue
      · cases hvalue
      · rename_i found hread
        split at hvalue
        · cases hvalue
          exact ⟨fun hnil => hset (List.isEmpty_iff.2 hnil), hread, hrange⟩
        · cases hvalue
  · rintro ⟨hset, hread, hrange⟩
    rw [number, if_neg (mt List.isEmpty_iff.1 hset), hread]
    dsimp only
    rw [if_pos ((h value).2 hrange), Logged.value_pure]

theorem value_level {raw name : Text} : (levelOf raw).value = some name ↔ GivesLevel raw name := by
  unfold levelOf
  constructor
  · intro hvalue
    split at hvalue
    · cases hvalue
    · rename_i hset
      split at hvalue
      · rename_i hknown
        cases hvalue
        exact ⟨fun hnil => hset (List.isEmpty_iff.2 hnil), List.contains_iff_mem.1 hknown, rfl⟩
      · cases hvalue
  · rintro ⟨hset, hknown, rfl⟩
    rw [if_neg (mt List.isEmpty_iff.1 hset), if_pos (List.contains_iff_mem.2 hknown),
      Logged.value_pure]

theorem value_threshold (value : Int) :
    (number thresholdName (0 ≤ ·) environment.threshold).value = some value ↔
      environment.GivesThreshold value :=
  value_number (fun _ => decide_eq_true_iff) value

theorem value_indent (value : Int) :
    (number indentName isIndent environment.indent).value = some value ↔
      environment.GivesIndent value :=
  value_number (fun _ => is_indent_iff) value

/-- Applying the variables replaces what they give values for, and nothing else. -/
theorem replaces_iff {file merged : Settings} :
    environment.Replaces file merged ↔ merged = (environment.apply file).value := by
  constructor
  · rintro ⟨hthreshold, hindent, hlevel, hstructural, hdirectory, hjson⟩
    rw [replaced_iff value_threshold] at hthreshold
    rw [replaced_iff value_indent] at hindent
    rw [replaced_iff fun _ => value_level] at hlevel
    obtain ⟨⟨_, _⟩, ⟨_, _⟩, ⟨_, _⟩⟩ := merged
    cases hthreshold
    cases hindent
    cases hlevel
    cases hstructural
    cases hdirectory
    cases hjson
    rfl
  · rintro rfl
    exact ⟨(replaced_iff value_threshold).2 rfl, (replaced_iff value_indent).2 rfl,
      (replaced_iff fun _ => value_level).2 rfl, rfl, rfl, rfl⟩

/-- Whether two environments have the same home and variables that give the same. A variable that is
not readable or not in range gives what one gives that is not set: nothing. -/
structure GivesSame (environment other : Environment) : Prop where
  home : environment.home = other.home
  threshold : ∀ value, environment.GivesThreshold value ↔ other.GivesThreshold value
  indent : ∀ value, environment.GivesIndent value ↔ other.GivesIndent value
  level : ∀ name, GivesLevel environment.level name ↔ GivesLevel other.level name

theorem GivesSame.apply_eq {other : Environment} (h : environment.GivesSame other)
    (settings : Settings) : (environment.apply settings).value = (other.apply settings).value := by
  have happly : environment.Replaces settings (environment.apply settings).value :=
    replaces_iff.2 rfl
  have hthreshold : environment.GivesThreshold = other.GivesThreshold :=
    funext fun value => propext (h.threshold value)
  have hindent : environment.GivesIndent = other.GivesIndent :=
    funext fun value => propext (h.indent value)
  have hlevel : GivesLevel environment.level = GivesLevel other.level :=
    funext fun name => propext (h.level name)
  exact replaces_iff.1
    { happly with
      threshold := hthreshold ▸ happly.threshold
      indent := hindent ▸ happly.indent
      level := hlevel ▸ happly.level }

end Environment

/-! ## What comes out -/

namespace Settings

/-- Settings with the level in upper case, or the first of the three that is out of range. -/
def outcome (settings : Settings) : Except SettingsFault Settings :=
  if settings.generation.threshold < 0 then .error (.threshold settings.generation.threshold)
  else if ¬ (0 ≤ settings.output.indent ∧ settings.output.indent ≤ 8) then
    .error (.indent settings.output.indent)
  else if settings.logging.level.upper ∈ levelNames then
    .ok { settings with logging := { settings.logging with level := settings.logging.level.upper } }
  else .error (.level settings.logging.level)

theorem check_eq_outcome {settings : Settings} (h : ¬ settings.IsUnshowable) :
    settings.check.value = settings.outcome := by
  have hshown : ∀ fault : Int → SettingsFault, ∀ value : Int,
      ¬ IntegerText.decimalBound ≤ value.natAbs → .ofNumber fault value = fault value :=
    fun _ _ hshort => if_pos (IntegerText.fits_iff.2 (Nat.lt_of_not_le hshort))
  unfold IsUnshowable at h
  rw [value_check, outcome]
  by_cases hthreshold : settings.generation.threshold < 0
  · rw [if_pos hthreshold, if_pos hthreshold,
      hshown _ _ fun hlong => h (.inl ⟨hthreshold, hlong⟩)]
  · rw [if_neg hthreshold, if_neg hthreshold, OutputSettings.check]
    cases hindent : isIndent settings.output.indent with
    | false =>
        have hrange : ¬ (0 ≤ settings.output.indent ∧ settings.output.indent ≤ 8) :=
          mt is_indent_iff.2 (Bool.eq_false_iff.1 hindent)
        rw [if_neg Bool.false_ne_true, if_pos hrange,
          hshown _ _ fun hlong => h (.inr ⟨Int.not_lt.1 hthreshold, hindent, hlong⟩)]
        rfl
    | true =>
        have hrange : 0 ≤ settings.output.indent ∧ settings.output.indent ≤ 8 :=
          is_indent_iff.1 hindent
        rw [if_pos rfl, if_neg (not_not_intro hrange), LogSettings.check]
        by_cases hlevel : settings.logging.level.upper ∈ levelNames
        · rw [if_pos hlevel, if_pos (List.contains_iff_mem.2 hlevel)]
          rfl
        · rw [if_neg hlevel, if_neg (mt List.contains_iff_mem.1 hlevel)]
          rfl

/-- Numbers that can be shown in a file can be shown in what the variables make of it. -/
theorem showable_of_replaces {environment : Environment} {file merged : Settings}
    (h : environment.Replaces file merged) (hthreshold : IntegerText.fits file.generation.threshold)
    (hindent : IntegerText.fits file.output.indent) : ¬ merged.IsUnshowable := by
  -- What a variable gives is in range, so a number that is not was in the file before.
  rintro (⟨hnegative, hlong⟩ | ⟨-, hout, hlong⟩)
  · rcases h.threshold with hgives | ⟨-, hfile⟩
    · exact absurd hgives.inRange (Int.not_le.2 hnegative)
    · rw [hfile] at hlong
      exact Nat.not_le.2 (IntegerText.fits_iff.1 hthreshold) hlong
  · rcases h.indent with hgives | ⟨-, hfile⟩
    · exact absurd (is_indent_iff.2 hgives.inRange) (Bool.eq_false_iff.1 hout)
    · rw [hfile] at hlong
      exact Nat.not_le.2 (IntegerText.fits_iff.1 hindent) hlong

/-- What comes out of settings is a fault if and only if one of three is out of range. -/
theorem outcome_eq_error_iff {settings : Settings} :
    (∃ fault, settings.outcome = .error fault) ↔
      settings.generation.threshold < 0 ∨
        ¬ (0 ≤ settings.output.indent ∧ settings.output.indent ≤ 8) ∨
        settings.logging.level.upper ∉ levelNames := by
  unfold outcome
  split
  · simp [*]
  · split
    · simp [*]
    · split <;> simp_all

/-- Only the level of the log is changed in what comes out. -/
theorem kept_of_outcome {settings checked : Settings} (h : settings.outcome = .ok checked) :
    checked.generation = settings.generation ∧ checked.output = settings.output ∧
      checked.logging.json = settings.logging.json := by
  unfold outcome at h
  split at h
  · cases h
  · split at h
    · cases h
    · split at h
      · cases h
        exact ⟨rfl, rfl, rfl⟩
      · cases h

end Settings

/-! ## Known keys -/

namespace Yaml

/-- Whether two mappings have the same values under some keys. -/
def AgreeOn (keys : List String) (members others : Members) : Prop :=
  ∀ key ∈ keys, Value.member? key members = Value.member? key others

/-- Whether what stands in place of a section is the same as far as some keys go. -/
inductive SameSection (keys : List String) : Option Value → Option Value → Prop
  | equal {found : Option Value} : SameSection keys found found
  | mapping {members others : Members} (h : AgreeOn keys members others) :
      SameSection keys (some (.mapping members)) (some (.mapping others))

/-- Whether two mappings are the same as far as known keys go, those of sections and of the settings in
them. -/
structure SameKnown (root other : Members) : Prop where
  generation : SameSection ["error_code_threshold", "structural_generics"]
    (Value.member? "generation" root) (Value.member? "generation" other)
  output : SameSection ["indent", "directory"]
    (Value.member? "output" root) (Value.member? "output" other)
  logging : SameSection ["level", "json_format"]
    (Value.member? "logging" root) (Value.member? "logging" other)

/-- Mappings with the same known keys have the same sections, or the same fault in place of one. -/
theorem section_congr {keys : List String} {root other : Members} {name : String}
    (h : SameSection keys (Value.member? name root) (Value.member? name other)) :
    (∃ fault, sectionOf name root = .error fault ∧ sectionOf name other = .error fault) ∨
      ∃ members others, sectionOf name root = .ok members ∧ sectionOf name other = .ok others ∧
        AgreeOn keys members others := by
  unfold sectionOf
  generalize Value.member? name root = found, Value.member? name other = found' at h
  cases h with
  | mapping h => exact .inr ⟨_, _, rfl, rfl, h⟩
  | equal =>
      cases found with
      | none => exact .inr ⟨_, _, rfl, rfl, fun _ _ => rfl⟩
      | some value =>
          cases value with
          | null => exact .inr ⟨_, _, rfl, rfl, fun _ _ => rfl⟩
          | mapping members => exact .inr ⟨_, _, rfl, rfl, fun _ _ => rfl⟩
          | _ => exact .inl ⟨_, rfl, rfl⟩

end Yaml

namespace Settings

open Yaml (Members SameKnown SameSection AgreeOn)

/-- What is read of a section depends on its known keys only, if that holds of what is read of its
members. -/
theorem section_bind_congr {α : Type} {keys : List String} {root other : Members} {name : String}
    (h : SameSection keys (Yaml.Value.member? name root) (Yaml.Value.member? name other))
    {next : Members → Except ReadFault α}
    (hnext : ∀ members others, AgreeOn keys members others → next members = next others) :
    (Yaml.sectionOf name root >>= next) = (Yaml.sectionOf name other >>= next) := by
  rcases Yaml.section_congr h with
    ⟨fault, hroot, hother⟩ | ⟨members, others, hroot, hother, hagree⟩
  · rw [hroot, hother]
  · rw [hroot, hother]
    exact hnext members others hagree

/-- Mappings with the same known keys hold the same settings, or have the same fault. -/
theorem of_sections_congr {home : Homes} {root other : Members} (h : SameKnown root other) :
    ofSections home root = ofSections home other := by
  have hgeneration : generationOf root = generationOf other := by
    refine section_bind_congr h.generation fun members others hagree => ?_
    rw [Yaml.integerOf, Yaml.integerOf, Yaml.flagOf, Yaml.flagOf,
      hagree "error_code_threshold" (by decide), hagree "structural_generics" (by decide)]
  have houtput : outputOf home root = outputOf home other := by
    refine section_bind_congr h.output fun members others hagree => ?_
    rw [Yaml.integerOf, Yaml.integerOf, directoryOf, directoryOf, hagree "indent" (by decide),
      hagree "directory" (by decide)]
  have hlogging : loggingOf root = loggingOf other := by
    refine section_bind_congr h.logging fun members others hagree => ?_
    rw [levelOf, levelOf, Yaml.flagOf, Yaml.flagOf, hagree "level" (by decide),
      hagree "json_format" (by decide)]
  rw [of_sections_eq, of_sections_eq, hgeneration, houtput, hlogging]

variable {reader : Reader}

/-- Whether the file at a path holds a mapping. -/
def MappingIn (reader : Reader) (tree : FileTree) (path : Path) (root : Members) : Prop :=
  ∃ content, tree.read path = .ok content ∧ valueOf reader content = .ok (.mapping root)

theorem value_of_mapping_in {home : Homes} {tree : FileTree} {path : Path} {root : Members}
    (h : MappingIn reader tree path root) :
    (ofFileOrDefault reader home tree path).value =
      match ofSections home root with
      | .ok settings => .ok settings
      | .error fault => if fault.isForgiven then .ok Settings.default else .error fault := by
  obtain ⟨content, hread, hyaml⟩ := h
  simp only [ofFileOrDefault, holds_of_read hread, of_file_of_read hread, Logged.value_bind]
  rw [ofContent, hyaml]
  simp only [value_of_mapping]
  cases ofSections home root with
  | ok settings => rfl
  | error fault =>
      dsimp only
      split <;> rfl

theorem load_eq (environment : Environment) {tree : FileTree} {path : Path} :
    (loadWith reader environment tree path).value =
      match (ofFileOrDefault reader environment.home tree path).value with
      | .error fault => .error (.unread fault)
      | .ok file => (environment.apply file).value.check.value.mapError .invalid := by
  rw [loadWith, Logged.value_bind]
  cases (ofFileOrDefault reader environment.home tree path).value <;> rfl

theorem load_same_known (environment : Environment) {tree other : FileTree} {path place : Path}
    {root members : Members} (hroot : MappingIn reader tree path root)
    (hother : MappingIn reader other place members) (h : SameKnown root members) :
    (loadWith reader environment other place).value =
      (loadWith reader environment tree path).value := by
  rw [load_eq, load_eq, value_of_mapping_in hroot, value_of_mapping_in hother, of_sections_congr h]

theorem load_gives_same {environment other : Environment} (h : environment.GivesSame other)
    (tree : FileTree) (path : Path) :
    (loadWith reader other tree path).value = (loadWith reader environment tree path).value := by
  rw [load_eq, load_eq, h.home]
  cases (ofFileOrDefault reader other.home tree path).value with
  | error _ => rfl
  | ok file =>
      dsimp only
      rw [h.apply_eq]

/-- A setting is out of range in the end if and only if it is so in the file and its variable gives
nothing in its place. -/
theorem outcome_of_replaces {environment : Environment} {file merged : Settings}
    (h : environment.Replaces file merged) :
    (∃ fault, merged.outcome = .error fault) ↔
      (file.generation.threshold < 0 ∧ ∀ value, ¬ environment.GivesThreshold value) ∨
        (¬ (0 ≤ file.output.indent ∧ file.output.indent ≤ 8) ∧
          ∀ value, ¬ environment.GivesIndent value) ∨
        (file.logging.level.upper ∉ levelNames ∧
          ∀ name, ¬ Environment.GivesLevel environment.level name) := by
  have hlevel : ∀ name, Environment.GivesLevel environment.level name →
      name.upper ∈ levelNames := by
    rintro _ ⟨-, hknown, rfl⟩
    rwa [upper_level hknown]
  rw [outcome_eq_error_iff]
  refine or_congr ?_ (or_congr ?_ ?_)
  · exact h.threshold.iff_of_good fun value hvalue => Int.not_lt.2 hvalue.inRange
  · exact h.indent.iff_of_good fun value hvalue => not_not_intro hvalue.inRange
  · exact h.level.iff_of_good fun name hname => not_not_intro (hlevel name hname)

end Settings

/-- If a file can be looked up and has no fault that is not forgiven, and its numbers are not too long
to be shown, what is loaded comes out of the settings in the file, each of three replaced by what its
variable gives. So variables that give the same make no difference; loading fails if and only if one of
the three is out of range in the file and its variable gives nothing; the other settings are those in
the file; and only the known keys of a mapping matter. All this holds in whatever way the text of a
file is read as a YAML value. -/
theorem settings_precedence (reader : Settings.Reader) (environment : Environment) {tree : FileTree}
    {path : Path} {file : Settings} (hfile : Settings.inFile reader environment.home tree path = file)
    (hholds : ∃ found, tree.holds path = .ok found)
    (hcaught : ∀ content fault, tree.read path = .ok content →
      ¬ Uncaught reader environment.home content fault)
    (hthreshold : IntegerText.fits file.generation.threshold)
    (hindent : IntegerText.fits file.output.indent) :
    (∃ merged, (∀ settings, environment.Replaces file settings ↔ settings = merged) ∧
      (Settings.loadWith reader environment tree path).value = merged.outcome.mapError .invalid) ∧
    (∀ other : Environment, environment.GivesSame other →
      (Settings.loadWith reader other tree path).value =
        (Settings.loadWith reader environment tree path).value) ∧
    ((∃ fault, (Settings.loadWith reader environment tree path).value = .error fault) ↔
      (file.generation.threshold < 0 ∧ ∀ value, ¬ environment.GivesThreshold value) ∨
        (¬ (0 ≤ file.output.indent ∧ file.output.indent ≤ 8) ∧
          ∀ value, ¬ environment.GivesIndent value) ∨
        (file.logging.level.upper ∉ levelNames ∧
          ∀ name, ¬ Environment.GivesLevel environment.level name)) ∧
    (∀ settings, (Settings.loadWith reader environment tree path).value = .ok settings →
      settings.generation.structural = file.generation.structural ∧
        settings.output.directory = file.output.directory ∧
        settings.logging.json = file.logging.json) ∧
    (∀ other place root members, Settings.MappingIn reader tree path root →
      Settings.MappingIn reader other place members → Yaml.SameKnown root members →
      (Settings.loadWith reader environment other place).value =
        (Settings.loadWith reader environment tree path).value) := by
  have hmerged : environment.Replaces file (environment.apply file).value :=
    Environment.replaces_iff.2 rfl
  -- All parts are read off what the variables make of the settings in the file.
  have hload : (Settings.loadWith reader environment tree path).value =
      (environment.apply file).value.outcome.mapError .invalid := by
    rw [Settings.load_eq, Settings.value_of_file_or_default hholds hcaught, hfile,
      ← Settings.check_eq_outcome (Settings.showable_of_replaces hmerged hthreshold hindent)]
  refine ⟨⟨_, fun _ => Environment.replaces_iff, hload⟩,
    fun _ hsame => Settings.load_gives_same hsame tree path, ?_, ?_,
    fun _ _ _ _ hroot hother hknown => Settings.load_same_known environment hroot hother hknown⟩
  · rw [hload, ← Settings.outcome_of_replaces hmerged]
    cases (environment.apply file).value.outcome with
    | ok settings => exact iff_of_false nofun nofun
    | error fault => exact iff_of_true ⟨_, rfl⟩ ⟨_, rfl⟩
  · intro settings hsettings
    rw [hload] at hsettings
    cases houtcome : (environment.apply file).value.outcome with
    | error fault =>
        rw [houtcome] at hsettings
        cases hsettings
    | ok loaded =>
        rw [houtcome] at hsettings
        cases hsettings
        obtain ⟨hgeneration, houtput, hjson⟩ := Settings.kept_of_outcome houtcome
        exact ⟨by rw [hgeneration, hmerged.structural], by rw [houtput, hmerged.directory],
          by rw [hjson, hmerged.json]⟩

/-- Variables one of which is no number. -/
def someVariables : Environment :=
  { bareRoot with threshold := "600", indent := "nine", level := "debug" }

/-- A file whose threshold is out of range. -/
def negativeThreshold : String :=
  "generation: \x7berror_code_threshold: -1\x7d\noutput: \x7bindent: 4\x7d"

/-- A threshold that is out of range is hidden by its variable, and a variable that is no number leaves
the indentation as it is. -/
theorem settings_precedence_hidden :
    (Settings.load someVariables (treeWithSettings negativeThreshold) rootFile).value =
      .ok ⟨⟨600, false⟩, ⟨4, none⟩, ⟨"DEBUG", false⟩⟩ := by
  have hread : (treeWithSettings negativeThreshold).read rootFile = .ok (bytesOf negativeThreshold) :=
    rfl
  have hcontent : (Settings.ofContent Settings.yamlOf someVariables.home
      (bytesOf negativeThreshold)).value.toOption =
        some ⟨⟨-1, false⟩, ⟨4, none⟩, ⟨"INFO", false⟩⟩ := by decide +kernel
  have hfile : Settings.inFile Settings.yamlOf someVariables.home
      (treeWithSettings negativeThreshold) rootFile = ⟨⟨-1, false⟩, ⟨4, none⟩, ⟨"INFO", false⟩⟩ := by
    rw [Settings.inFile, hread]
    show Settings.inContent _ _ _ = _
    rw [Settings.in_content_eq, hcontent]
    rfl
  have hcaught : ∀ content fault,
      (treeWithSettings negativeThreshold).read rootFile = .ok content →
        ¬ Uncaught Settings.yamlOf someVariables.home content fault := by
    rintro _ fault ⟨⟩ huncaught
    have hescapes := (escapes_content.2 huncaught).1
    rw [hescapes] at hcontent
    cases hcontent
  obtain ⟨⟨merged, hmerged, hload⟩, -⟩ := settings_precedence Settings.yamlOf someVariables hfile
    ⟨true, Settings.holds_of_read hread⟩ hcaught (by decide +kernel) (by decide +kernel)
  have hreplaces : someVariables.Replaces ⟨⟨-1, false⟩, ⟨4, none⟩, ⟨"INFO", false⟩⟩
      ⟨⟨600, false⟩, ⟨4, none⟩, ⟨"DEBUG", false⟩⟩ := by
    have hnine : IntegerText.read 10 someVariables.indent = .error .malformed := rfl
    refine ⟨.inl ⟨by decide, rfl, by decide⟩, .inr ⟨fun value hgives => ?_, rfl⟩,
      .inl ⟨by decide, by decide +kernel, by decide +kernel⟩, rfl, rfl, rfl⟩
    have hread := hgives.readable
    rw [hnine] at hread
    cases hread
  rw [Settings.load, hload, ← (hmerged _).1 hreplaces, Settings.outcome, if_neg (by decide),
    if_neg (by decide), upper_level (by decide), if_pos (by decide)]
  rfl

/-- The root mapping is its own section here, so a key in it that is reported as unknown and ignored is
used as a setting of the section. -/
theorem ignored_key_used :
    (Settings.load bareRoot (treeWithSettings "&a \x7bgeneration: *a, error_code_threshold: 7\x7d")
        rootFile).value.toOption = some ⟨⟨7, false⟩, ⟨2, none⟩, ⟨"INFO", false⟩⟩ ∧
    (∃ entry ∈ (Settings.load bareRoot
        (treeWithSettings "&a \x7bgeneration: *a, error_code_threshold: 7\x7d") rootFile).entries,
      entry.level = .warning ∧
        entry.message = "Unknown config keys ignored: \x7b'error_code_threshold'\x7d") ∧
    (Settings.load bareRoot (treeWithSettings "&a \x7bgeneration: *a\x7d") rootFile).value.toOption =
      some Settings.default := by
  decide +kernel

end ProgramInterface
