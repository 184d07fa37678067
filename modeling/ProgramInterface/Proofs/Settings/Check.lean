import ProgramInterface.Settings.Load

/-!
# Good settings

Settings that pass the check are good: the threshold is not negative, the indentation is in range, and
the level is one of the four names in upper case. Good settings pass unchanged, and variables keep
settings good, since each replaces a setting by one in range. What the check says of settings that
are not good can always be shown, except for a number with too many digits (`IsUnshowable`).
-/

namespace ProgramInterface

/-- The settings that the program can run with. -/
structure Settings.Good (settings : Settings) : Prop where
  threshold : 0 ≤ settings.generation.threshold
  least : 0 ≤ settings.output.indent
  greatest : settings.output.indent ≤ indentLimit
  level : settings.logging.level ∈ levelNames

/-- Whether the first number of some settings that is out of range has too many digits to be shown. -/
def Settings.IsUnshowable (settings : Settings) : Prop :=
  settings.generation.threshold < 0 ∧
      IntegerText.decimalBound ≤ settings.generation.threshold.natAbs ∨
    0 ≤ settings.generation.threshold ∧ isIndent settings.output.indent = false ∧
      IntegerText.decimalBound ≤ settings.output.indent.natAbs

theorem is_indent_iff {value : Int} : isIndent value = true ↔ 0 ≤ value ∧ value ≤ indentLimit := by
  simp [isIndent]

theorem upper_level {name : Text} (h : name ∈ levelNames) : name.upper = name := by
  revert name
  decide +kernel

theorem SettingsFault.of_number_eq_unwritable (fault : Int → SettingsFault) {value : Int}
    (hfault : fault value ≠ unwritable) :
    SettingsFault.ofNumber fault value = unwritable ↔
      IntegerText.decimalBound ≤ value.natAbs := by
  unfold ofNumber IntegerText.fits
  split
  · rename_i hfits
    exact iff_of_false hfault (Nat.not_le.2 (of_decide_eq_true hfits))
  · rename_i hlong
    exact iff_of_true rfl (Nat.not_lt.1 (mt decide_eq_true hlong))

theorem GenerationSettings.value_check (settings : GenerationSettings) :
    settings.check.value =
      if settings.threshold < 0 then .error (.ofNumber .threshold settings.threshold)
      else .ok () := by
  unfold check
  split
  · rfl
  · cases settings.structural <;> rfl

namespace Settings

theorem value_check (settings : Settings) :
    settings.check.value =
      if settings.generation.threshold < 0 then
        .error (.ofNumber .threshold settings.generation.threshold)
      else do
        settings.output.check
        return { settings with logging := ← settings.logging.check } := by
  unfold check
  rw [Logged.value_bind, GenerationSettings.value_check]
  by_cases hthreshold : settings.generation.threshold < 0
  · simp only [if_pos hthreshold, Logged.value_pure]
  · simp only [if_neg hthreshold, Logged.value_pure]

/-- What passes the check is good. -/
theorem good_of_check {settings checked : Settings} (h : settings.check.value = .ok checked) :
    checked.Good := by
  rw [value_check] at h
  split at h
  · cases h
  · rename_i hthreshold
    unfold OutputSettings.check LogSettings.check at h
    split at h
    · rename_i hindent
      split at h
      · rename_i hlevel
        cases h
        exact ⟨Int.not_lt.1 hthreshold, (is_indent_iff.1 hindent).1, (is_indent_iff.1 hindent).2,
          List.contains_iff_mem.1 hlevel⟩
      · cases h
    · cases h

/-- Good settings pass the check as they are. -/
theorem Good.value_check {settings : Settings} (h : settings.Good) :
    settings.check.value = .ok settings := by
  rw [Settings.value_check, if_neg (Int.not_lt.2 h.threshold), OutputSettings.check,
    if_pos (is_indent_iff.2 ⟨h.least, h.greatest⟩), LogSettings.check, upper_level h.level,
    if_pos (List.contains_iff_mem.2 h.level)]
  rfl

/-- The check cannot say what is wrong only if a number is too long. -/
theorem check_eq_unwritable {settings : Settings} :
    settings.check.value = .error .unwritable ↔ settings.IsUnshowable := by
  rw [value_check, IsUnshowable]
  by_cases hthreshold : settings.generation.threshold < 0
  · rw [if_pos hthreshold, Except.error.injEq, SettingsFault.of_number_eq_unwritable .threshold nofun]
    exact ⟨fun hlong => .inl ⟨hthreshold, hlong⟩, fun h =>
      h.elim And.right fun h => absurd hthreshold (Int.not_lt.2 h.1)⟩
  · rw [if_neg hthreshold, OutputSettings.check]
    cases hindent : isIndent settings.output.indent with
    | true =>
        refine iff_of_false (fun h => ?_) (by simp [hthreshold])
        rw [if_pos rfl, LogSettings.check] at h
        split at h <;> cases h
    | false =>
        have hlong : SettingsFault.ofNumber .indent settings.output.indent = .unwritable ↔ _ :=
          SettingsFault.of_number_eq_unwritable .indent nofun
        refine ⟨fun h => .inr ⟨Int.not_lt.1 hthreshold, rfl, hlong.1 (Except.error.inj h)⟩, ?_⟩
        rintro (⟨hnegative, _⟩ | ⟨_, _, h⟩)
        · exact absurd hnegative hthreshold
        · exact congrArg Except.error (hlong.2 h)

end Settings

namespace Environment

/-- A number that a variable gives is in range. -/
theorem in_range_of_number {name : String} {isInRange : Int → Bool} {raw : Text} {value : Int}
    (h : (number name isInRange raw).value = some value) : isInRange value = true := by
  unfold number at h
  split at h
  · cases h
  · split at h
    · cases h
    · split at h
      · cases h
        assumption
      · cases h

theorem mem_level_names {raw name : Text} (h : (levelOf raw).value = some name) :
    name ∈ levelNames := by
  unfold levelOf at h
  split at h
  · cases h
  · split at h
    · cases h
      exact List.contains_iff_mem.1 (by assumption)
    · cases h

/-- Variables keep settings good. -/
theorem good_apply {settings : Settings} (h : settings.Good) (environment : Environment) :
    (environment.apply settings).value.Good := by
  have hthreshold : 0 ≤ (number thresholdName (0 ≤ ·) environment.threshold).value.getD
      settings.generation.threshold := by
    cases hvalue : (number thresholdName (0 ≤ ·) environment.threshold).value with
    | none => exact h.threshold
    | some value => exact of_decide_eq_true (in_range_of_number hvalue)
  have hindent : isIndent ((number indentName isIndent environment.indent).value.getD
      settings.output.indent) = true := by
    cases hvalue : (number indentName isIndent environment.indent).value with
    | none => exact is_indent_iff.2 ⟨h.least, h.greatest⟩
    | some value => exact in_range_of_number hvalue
  have hlevel : (levelOf environment.level).value.getD settings.logging.level ∈ levelNames := by
    cases hvalue : (levelOf environment.level).value with
    | none => exact h.level
    | some name => exact mem_level_names hvalue
  exact ⟨hthreshold, (is_indent_iff.1 hindent).1, (is_indent_iff.1 hindent).2, hlevel⟩

end Environment

end ProgramInterface
