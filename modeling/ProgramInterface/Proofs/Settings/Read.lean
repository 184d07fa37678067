import ProgramInterface.Proofs.Home
import ProgramInterface.Settings.Load

/-!
# Faults of a settings file

The three sections of a settings file are read one after the other. Most faults of a file are
forgiven. Those that are not are few (`Uncaught`), in whatever way the YAML text is read: a fault of
the text that is not forgiven, an infinite number where an integer is wanted, and a directory in the
home of a user who has none.
-/

namespace ProgramInterface

namespace Yaml

/-- Whether the value of a key is an infinite number. -/
def IsInfinite (key : String) (members : Members) : Prop :=
  ∃ isNegative, Value.member? key members = some (.float (.infinite isNegative))

end Yaml

namespace Settings

/-- The settings in the section on generation. -/
def generationOf (root : Yaml.Members) : Except ReadFault GenerationSettings := do
  let generation ← Yaml.sectionOf "generation" root
  let threshold ← Yaml.integerOf "error_code_threshold" Settings.default.generation.threshold
    generation
  let structural ← Yaml.flagOf "generation" "structural_generics" generation
  return ⟨threshold, structural⟩

/-- The directory in the section on output. -/
def directoryOf (home : Homes) (output : Yaml.Members) : Except ReadFault (Option Path) :=
  match Yaml.Value.member? "directory" output with
  | none => .ok none
  | some value => value.toDirectory home

/-- The settings in the section on output. -/
def outputOf (home : Homes) (root : Yaml.Members) : Except ReadFault OutputSettings := do
  let output ← Yaml.sectionOf "output" root
  let indent ← Yaml.integerOf "indent" Settings.default.output.indent output
  let directory ← directoryOf home output
  return ⟨indent, directory⟩

/-- The level in the section on the log. -/
def levelOf (logging : Yaml.Members) : Except ReadFault Text :=
  match Yaml.Value.member? "level" logging with
  | none => .ok Settings.default.logging.level
  | some value => value.toPlainText

/-- The settings in the section on the log. -/
def loggingOf (root : Yaml.Members) : Except ReadFault LogSettings := do
  let logging ← Yaml.sectionOf "logging" root
  let level ← levelOf logging
  let json ← Yaml.flagOf "logging" "json_format" logging
  return ⟨level, json⟩

/-- The settings of a mapping are those of its three sections. -/
theorem of_sections_eq (home : Homes) (root : Yaml.Members) :
    ofSections home root = do
      let generation ← generationOf root
      let output ← outputOf home root
      let logging ← loggingOf root
      return ⟨generation, output, logging⟩ := by
  unfold ofSections generationOf outputOf loggingOf directoryOf levelOf
  simp only [bind_assoc, pure_bind]
  refine bind_congr fun _ => bind_congr fun _ => bind_congr fun _ => bind_congr fun output =>
    bind_congr fun _ => ?_
  cases Yaml.Value.member? "directory" output with
  | none =>
      refine bind_congr fun logging => ?_
      cases Yaml.Value.member? "level" logging <;> rfl
  | some value =>
      refine bind_congr fun _ => bind_congr fun logging => ?_
      cases Yaml.Value.member? "level" logging <;> rfl

/-- The settings that the content of a file holds. -/
def ofContent (reader : Reader) (home : Homes) (content : List UInt8) :
    Logged (Except ReadFault Settings) :=
  match valueOf reader content with
  | .error fault => pure (.error fault)
  | .ok value => ofValue home value

theorem of_file_of_read {reader : Reader} {home : Homes} {path : Path} {tree : FileTree}
    {content : List UInt8} (h : tree.read path = .ok content) :
    ofFileWith reader home tree path = ofContent reader home content := by
  rw [ofFileWith, h]
  rfl

theorem value_of_mapping (home : Homes) (root : Yaml.Members) :
    (ofValue home (.mapping root)).value = ofSections home root := by
  rw [ofValue]
  split <;> rfl

end Settings

/-! ## Faults that are not forgiven -/

/-- The faults of a mapping with sections that are not forgiven. A fault further down counts only if
what precedes it can be read. -/
inductive UncaughtIn (home : Homes) (root : Yaml.Members) : ReadFault → Prop
  | threshold {generation : Yaml.Members}
      (hsection : Yaml.sectionOf "generation" root = .ok generation)
      (hvalue : Yaml.IsInfinite "error_code_threshold" generation) :
      UncaughtIn home root .infinite
  | indent {settings : GenerationSettings} {output : Yaml.Members}
      (hgeneration : Settings.generationOf root = .ok settings)
      (hsection : Yaml.sectionOf "output" root = .ok output)
      (hvalue : Yaml.IsInfinite "indent" output) :
      UncaughtIn home root .infinite
  | directory {settings : GenerationSettings} {output : Yaml.Members} {indent : Int} {t : Text}
      (hgeneration : Settings.generationOf root = .ok settings)
      (hsection : Yaml.sectionOf "output" root = .ok output)
      (hindent : Yaml.integerOf "indent" Settings.default.output.indent output = .ok indent)
      (hvalue : Yaml.Value.member? "directory" output = some (.text t))
      (huser : home.LeadsToStranger (Path.ofText t)) :
      UncaughtIn home root .noHome

/-- The faults of the content of a file that are not forgiven. -/
inductive Uncaught (reader : Settings.Reader) (home : Homes) (content : List UInt8) :
    ReadFault → Prop
  | unread {fault : ReadFault} (hvalue : Settings.valueOf reader content = .error fault)
      (hfault : fault.isForgiven = false) :
      Uncaught reader home content fault
  | mapping {root : Yaml.Members} {fault : ReadFault}
      (hvalue : Settings.valueOf reader content = .ok (.mapping root))
      (hroot : UncaughtIn home root fault) :
      Uncaught reader home content fault

/-- Whether an outcome is a fault that is not forgiven. -/
def Escapes {α : Type} (outcome : Except ReadFault α) (fault : ReadFault) : Prop :=
  outcome = .error fault ∧ fault.isForgiven = false

variable {α β : Type} {fault : ReadFault}

@[simp]
theorem not_escapes_ok {a : α} : ¬ Escapes (.ok a) fault := nofun

@[simp]
theorem not_escapes_pure {a : α} : ¬ Escapes (pure a) fault := nofun

theorem escapes_error {first : ReadFault} :
    Escapes (.error first : Except ReadFault α) fault ↔ fault = first ∧ first.isForgiven = false := by
  constructor
  · rintro ⟨heq, hfault⟩
    cases heq
    exact ⟨rfl, hfault⟩
  · rintro ⟨rfl, hfault⟩
    exact ⟨rfl, hfault⟩

/-- An error that is forgiven does not escape. -/
theorem not_escapes_error {first : ReadFault} (h : first.isForgiven = true) :
    ¬ Escapes (.error first : Except ReadFault α) fault := by
  simp [escapes_error, h]

theorem escapes_bind {outcome : Except ReadFault α} {next : α → Except ReadFault β} :
    Escapes (outcome >>= next) fault ↔
      Escapes outcome fault ∨ ∃ a, outcome = .ok a ∧ Escapes (next a) fault := by
  cases outcome with
  | error first =>
      show Escapes (.error first) fault ↔ _
      simp [escapes_error]
  | ok a => simp [bind, Except.bind]

@[simp]
theorem escapes_map {outcome : Except ReadFault α} {f : α → β} :
    Escapes (f <$> outcome) fault ↔ Escapes outcome fault := by
  rw [map_eq_pure_bind, escapes_bind]
  simp

@[simp]
theorem not_escapes_section {name : String} {root : Yaml.Members} :
    ¬ Escapes (Yaml.sectionOf name root) fault := by
  unfold Yaml.sectionOf
  split
  any_goals exact not_escapes_ok
  exact not_escapes_error rfl

@[simp]
theorem not_escapes_flag {owner key : String} {members : Yaml.Members} :
    ¬ Escapes (Yaml.flagOf owner key members) fault := by
  unfold Yaml.flagOf
  split
  any_goals exact not_escapes_ok
  split <;> exact not_escapes_error rfl

@[simp]
theorem not_escapes_level {logging : Yaml.Members} :
    ¬ Escapes (Settings.levelOf logging) fault := by
  unfold Settings.levelOf Yaml.Value.toPlainText
  split
  · exact not_escapes_ok
  · split
    · exact not_escapes_ok
    · exact not_escapes_error rfl

/-- Only an infinite number keeps a value from being an integer without being forgiven. -/
theorem escapes_to_integer {value : Yaml.Value} :
    Escapes value.toInteger fault ↔
      fault = .infinite ∧ ∃ isNegative, value = .float (.infinite isNegative) := by
  cases value with
  | float x =>
      cases x with
      | infinite isNegative =>
          have hescapes : Escapes (.error .infinite : Except ReadFault Int) fault ↔
              fault = .infinite ∧ _ := escapes_error
          refine hescapes.trans (and_congr_right fun _ => iff_of_true rfl ⟨isNegative, rfl⟩)
      | finite isNegative mantissa exponent =>
          refine iff_of_false ?_ (by simp)
          exact not_escapes_ok
      | nan => exact iff_of_false (not_escapes_error rfl) (by simp)
  | text t =>
      refine iff_of_false ?_ (by simp)
      show ¬ Escapes (Except.mapError _ (IntegerText.read 10 t)) fault
      cases IntegerText.read 10 t with
      | error _ => exact not_escapes_error rfl
      | ok _ => exact not_escapes_ok
  | bytes data =>
      refine iff_of_false ?_ (by simp)
      show ¬ Escapes (Except.mapError _ (IntegerText.readChars 10 _)) fault
      cases IntegerText.readChars 10 _ with
      | error _ => exact not_escapes_error rfl
      | ok _ => exact not_escapes_ok
  | bool _ => exact iff_of_false not_escapes_ok (by simp)
  | int _ => exact iff_of_false not_escapes_ok (by simp)
  | _ => exact iff_of_false (not_escapes_error rfl) (by simp)

@[simp]
theorem escapes_integer {key : String} {default : Int} {members : Yaml.Members} :
    Escapes (Yaml.integerOf key default members) fault ↔
      fault = .infinite ∧ Yaml.IsInfinite key members := by
  unfold Yaml.integerOf Yaml.IsInfinite
  cases Yaml.Value.member? key members with
  | none => simp
  | some value => simp [escapes_to_integer]

/-- Only a user without a home directory keeps a value from being a directory without being
forgiven. -/
theorem escapes_to_directory {home : Homes} {value : Yaml.Value} :
    Escapes (value.toDirectory home) fault ↔
      fault = .noHome ∧ ∃ t, value = .text t ∧ home.LeadsToStranger (Path.ofText t) := by
  unfold Yaml.Value.toDirectory
  split
  · rename_i hempty
    refine iff_of_false not_escapes_ok ?_
    rintro ⟨_, t, rfl, user, names, _, hpath⟩
    obtain rfl : t = [] := List.isEmpty_iff.1 hempty
    cases hpath
  · split
    · rename_i t _
      have htext : (∃ u, Yaml.Value.text t = .text u ∧ home.LeadsToStranger (Path.ofText u)) ↔
          home.expand (Path.ofText t) = .error .unknown := by
        simp [Homes.expand_unknown_iff]
      rw [htext]
      split
      · rename_i hexpand
        exact iff_of_false not_escapes_ok (by simp [hexpand])
      · rename_i hexpand
        exact escapes_error.trans (and_congr_right fun _ => iff_of_true rfl hexpand)
      · rename_i hexpand
        exact iff_of_false (not_escapes_error rfl) (by simp [hexpand])
    · exact iff_of_false (not_escapes_error rfl) (by simp)
    · rename_i htext _
      refine iff_of_false (not_escapes_error rfl) ?_
      rintro ⟨_, t, rfl, _⟩
      exact htext t rfl

@[simp]
theorem escapes_directory {home : Homes} {output : Yaml.Members} :
    Escapes (Settings.directoryOf home output) fault ↔
      fault = .noHome ∧ ∃ t, Yaml.Value.member? "directory" output = some (.text t) ∧
        home.LeadsToStranger (Path.ofText t) := by
  unfold Settings.directoryOf
  cases Yaml.Value.member? "directory" output with
  | none => simp
  | some value => simp [escapes_to_directory]

theorem escapes_generation {root : Yaml.Members} :
    Escapes (Settings.generationOf root) fault ↔
      ∃ generation, Yaml.sectionOf "generation" root = .ok generation ∧
        fault = .infinite ∧ Yaml.IsInfinite "error_code_threshold" generation := by
  simp [Settings.generationOf, escapes_bind]

theorem escapes_output {home : Homes} {root : Yaml.Members} :
    Escapes (Settings.outputOf home root) fault ↔
      ∃ output, Yaml.sectionOf "output" root = .ok output ∧
        (fault = .infinite ∧ Yaml.IsInfinite "indent" output ∨
          ∃ indent, Yaml.integerOf "indent" Settings.default.output.indent output = .ok indent ∧
            fault = .noHome ∧ ∃ t, Yaml.Value.member? "directory" output = some (.text t) ∧
              home.LeadsToStranger (Path.ofText t)) := by
  simp [Settings.outputOf, escapes_bind]

theorem not_escapes_logging {root : Yaml.Members} :
    ¬ Escapes (Settings.loggingOf root) fault := by
  simp [Settings.loggingOf, escapes_bind]

/-- The faults of a mapping that are not forgiven. -/
theorem escapes_sections {home : Homes} {root : Yaml.Members} :
    Escapes (Settings.ofSections home root) fault ↔ UncaughtIn home root fault := by
  rw [Settings.of_sections_eq]
  simp only [escapes_bind, escapes_generation, escapes_output, not_escapes_logging,
    not_escapes_pure, and_false, exists_false, or_false]
  constructor
  · rintro (⟨_, hsection, rfl, hvalue⟩ | ⟨_, hgeneration, _, hsection, ⟨rfl, hvalue⟩ |
      ⟨_, hindent, rfl, _, hvalue, huser⟩⟩)
    · exact .threshold hsection hvalue
    · exact .indent hgeneration hsection hvalue
    · exact .directory hgeneration hsection hindent hvalue huser
  · rintro (⟨hsection, hvalue⟩ | ⟨hgeneration, hsection, hvalue⟩ |
      ⟨hgeneration, hsection, hindent, hvalue, huser⟩)
    · exact .inl ⟨_, hsection, rfl, hvalue⟩
    · exact .inr ⟨_, hgeneration, _, hsection, .inl ⟨rfl, hvalue⟩⟩
    · exact .inr ⟨_, hgeneration, _, hsection, .inr ⟨_, hindent, rfl, _, hvalue, huser⟩⟩

/-- The faults of the content of a file that are not forgiven. -/
theorem escapes_content {reader : Settings.Reader} {home : Homes} {content : List UInt8} :
    Escapes (Settings.ofContent reader home content).value fault ↔
      Uncaught reader home content fault := by
  constructor
  · intro h
    unfold Settings.ofContent at h
    split at h
    · rename_i first hvalue
      obtain ⟨rfl, hfault⟩ := escapes_error.1 h
      exact .unread hvalue hfault
    · rename_i value hvalue
      cases value with
      | mapping root =>
          rw [Settings.value_of_mapping] at h
          exact .mapping hvalue (escapes_sections.1 h)
      | null => exact absurd h not_escapes_ok
      | _ => exact absurd h (not_escapes_error rfl)
  · rintro (⟨hvalue, hfault⟩ | ⟨hvalue, hroot⟩)
    · rw [Settings.ofContent, hvalue]
      exact escapes_error.2 ⟨rfl, hfault⟩
    · rw [Settings.ofContent, hvalue]
      exact (Settings.value_of_mapping home _).symm ▸ escapes_sections.2 hroot

section
variable {reader : Settings.Reader} {home : Homes} {content : List UInt8}

theorem not_uncaught_of_ok {settings : Settings}
    (h : (Settings.ofContent reader home content).value = .ok settings) (fault : ReadFault) :
    ¬ Uncaught reader home content fault := by
  rw [← escapes_content, h]
  exact not_escapes_ok

theorem not_uncaught_of_forgiven {first : ReadFault}
    (h : (Settings.ofContent reader home content).value = .error first)
    (hforgiven : first.isForgiven = true) (fault : ReadFault) :
    ¬ Uncaught reader home content fault := by
  rw [← escapes_content, h]
  exact not_escapes_error hforgiven

end

end ProgramInterface
