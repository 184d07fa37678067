import ProgramInterface.Generate
import ProgramInterface.Proofs.Catalogue.Declarations
import ProgramInterface.Proofs.Grammar.SourceNodes

/-!
# Comments are transparent

Two sources that are the same code have the same description, whatever is commented where
(`comments_transparent`). Each run of the readers is compared with the run on the code of its source,
so that nothing has to be said about how the comments of the two sources lie to each other.
-/

namespace ProgramInterface

/-- Whether two sources have trees that are the same code. -/
def Source.SameCode (source other : Source) : Prop :=
  ∃ root root', source.parse = .ok root ∧ other.parse = .ok root' ∧ root.SameCode root'

instance (source other : Source) : Decidable (source.SameCode other) :=
  decidable_of_iff ((match source.parse, other.parse with
      | .ok root, .ok root' => decide (root.SameCode root')
      | _, _ => false) = true) <| by
    unfold Source.SameCode
    cases source.parse <;> cases other.parse <;> simp

variable {root : Node}

/-- The first function of a name expects the account that it expects in the code. -/
theorem entry_account_named_code (h : root.Tidy) (name : Text) (amongTypes : Bool) :
    (functionNamed? (root.code amongTypes) name).map entryAccount =
      (functionNamed? root name).map entryAccount := by
  rw [function_named_first, function_named_first]
  exact Node.find_map_code h (reads_code_named name fun _ hfunction => h.below hfunction) _

/-- The description of a source is that of its code. -/
theorem describe_code (settings : GenerationSettings) (h : root.Tidy) (amongTypes : Bool) :
    describe? settings (root.code amongTypes) = describe? settings root := by
  have hunmarked : (root.code amongTypes).declarationsIn (fun _ => false) =
      root.declarationsIn fun _ => false :=
    Node.declarations_code (fun _ _ _ => rfl) [] false amongTypes root h
  have hmarked : (root.code amongTypes).declarationsIn Node.derivesSerialization =
      root.declarationsIn Node.derivesSerialization :=
    Node.declarations_code (fun _ hmarker => derives_serialization_code hmarker) [] false
      amongTypes root h
  have hentry := entry_account_named_code h entryName amongTypes
  rw [describe?, describe?, errorEntries?, errorCodes, literal_values_code h,
    program_name_congr hunmarked, account_layouts_congr hunmarked,
    type_entries_congr hunmarked, instructions_congr hmarked hentry]
  rfl

/-- Tidy trees that are the same code, and sources with such trees, have the same description under
all settings. -/
theorem comments_transparent :
    (∀ (settings : GenerationSettings) (root other : Node), root.Tidy → other.Tidy →
      root.SameCode other → describe? settings root = describe? settings other) ∧
    ∀ (settings : GenerationSettings) (source other : Source), source.SameCode other →
      generate settings source = generate settings other := by
  have htrees : ∀ (settings : GenerationSettings) (root other : Node), root.Tidy →
      other.Tidy → root.SameCode other → describe? settings root = describe? settings other := by
    intro settings root other hroot hother hcode
    rw [← describe_code settings hroot false, hcode, describe_code settings hother false]
  refine ⟨htrees, fun settings source other hsame => ?_⟩
  obtain ⟨root, root', hroot, hother, hcode⟩ := hsame
  rw [generate, generate, hroot, hother]
  simp only [htrees settings root root' (parse_regular hroot).tidy (parse_regular hother).tidy hcode]

/-- Comments between an attribute and its struct, among the fields of a tuple and among variants, and
the same source without them. -/
theorem comments_transparent_everywhere :
    let commented := Source.text "#[derive(A)]/**/struct P(/*c*/Vec<u8>,u8/**/);enum E\x7bA,//\nB\x7d"
    let plain := Source.text "#[derive(A)]struct P(Vec<u8>,u8);enum E\x7bA,B\x7d"
    commented.SameCode plain ∧
      ∀ settings, generate settings commented = generate settings plain := by
  intro commented plain
  have hcode : commented.SameCode plain := by decide +kernel
  exact ⟨hcode, fun settings => comments_transparent.2 settings commented plain hcode⟩

end ProgramInterface
