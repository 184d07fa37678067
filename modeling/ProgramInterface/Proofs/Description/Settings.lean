import ProgramInterface.Proofs.Catalogue.Fields
import ProgramInterface.Proofs.Description.Failure

/-!
# What settings change

Two descriptions of one source differ only in what their settings name (`settings_scope`). The mode
in which types are read changes nothing but types: what is left of an instruction or type without
them, its outline, is the same in every mode. The threshold changes nothing but the error codes that
it leaves out.
-/

namespace ProgramInterface

/-! ## Outlines -/

/-- An instruction without the types of its arguments. -/
structure InstructionOutline where
  name : Text
  accounts : List AccountRef
  arguments : List Text

/-- A variant without the types of its fields. -/
structure VariantOutline where
  name : Text
  fields : Option (List Text)

/-- What a type is made of, without the types of fields. -/
inductive BodyOutline where
  | struct (fields : List Text)
  | enum (variants : List VariantOutline)

/-- A type without the types of its fields. -/
structure TypeOutline where
  name : Text
  body : BodyOutline

/-- The names of some fields. -/
def Field.names (fields : List Field) : List Text :=
  fields.map (·.name)

def Instruction.outline (instruction : Instruction) : InstructionOutline :=
  ⟨instruction.name, instruction.accounts, Field.names instruction.arguments⟩

def Variant.outline (variant : Variant) : VariantOutline :=
  ⟨variant.name, variant.fields.map Field.names⟩

def TypeBody.outline : TypeBody → BodyOutline
  | struct fields => .struct (Field.names fields)
  | enum variants => .enum (variants.map Variant.outline)

def TypeEntry.outline (entry : TypeEntry) : TypeOutline :=
  ⟨entry.name, entry.body.outline⟩

/-- Whether two descriptions are the same up to the types of arguments and of the fields of types,
their errors aside. -/
structure Document.SameOutline (first second : Document) : Prop where
  version : first.version = second.version
  name : first.name = second.name
  accounts : first.accounts = second.accounts
  instructions : first.instructions.map Instruction.outline =
    second.instructions.map Instruction.outline
  types : first.types.map TypeEntry.outline = second.types.map TypeEntry.outline

/-! ## Modes -/

/-- The mode does not change the names of the fields read at some places. -/
theorem names_of_read (mode mode' : FieldMode) (places : List FieldPlace) :
    Field.names (places.map (·.read mode)) = Field.names (places.map (·.read mode')) := by
  unfold Field.names
  rw [List.map_map, List.map_map]
  rfl

theorem names_of_fields (mode mode' : FieldMode) (item : Node) :
    Field.names (fieldsOf mode item) = Field.names (fieldsOf mode' item) := by
  rw [fields_of_eq, fields_of_eq]
  exact names_of_read mode mode' (placesOf item)

theorem names_of_fields_of_body (mode mode' : FieldMode) (body : Node) :
    Field.names (fieldsOfBody mode body) = Field.names (fieldsOfBody mode' body) := by
  rw [fields_of_body_eq, fields_of_body_eq]
  exact names_of_read mode mode' (placesOfBody body)

theorem outline_of_instruction (mode mode' : FieldMode) (account : AccountRef) (item : Placed) :
    (instructionOf? mode account item).map Instruction.outline =
      (instructionOf? mode' account item).map Instruction.outline := by
  unfold instructionOf?
  cases item.node.child? .name with
  | none => rfl
  | some name =>
      dsimp only
      split
      · simp only [Option.map_some, Instruction.outline, names_of_fields mode mode']
      · rfl

/-- The mode does not change the outlines of instructions. -/
theorem outlines_of_instructions (mode mode' : FieldMode) (root : Node) :
    (instructions mode root).map Instruction.outline =
      (instructions mode' root).map Instruction.outline := by
  unfold instructions
  split
  · rfl
  · rw [List.map_filterMap, List.map_filterMap]
    exact List.filterMap_congr fun item _ => outline_of_instruction mode mode' _ item

theorem outline_of_variant (mode mode' : FieldMode) (variant : Node) :
    (variantOf mode variant).outline = (variantOf mode' variant).outline := by
  unfold variantOf Variant.outline
  cases variant.child? .body with
  | none => rfl
  | some body =>
      simp only [Option.map_some, names_of_fields_of_body mode mode']

theorem outlines_of_variants (mode mode' : FieldMode) (item : Node) :
    (variantsOf mode item).map Variant.outline = (variantsOf mode' item).map Variant.outline := by
  unfold variantsOf
  cases item.child? .body with
  | none => rfl
  | some body =>
      rw [Option.elim_some, Option.elim_some, List.map_map, List.map_map]
      exact List.map_congr_left fun variant _ => outline_of_variant mode mode' variant

theorem outline_of_type_body (mode mode' : FieldMode) (item : Node) :
    (typeBodyOf mode item).outline = (typeBodyOf mode' item).outline := by
  unfold typeBodyOf
  split
  · exact congrArg BodyOutline.enum (outlines_of_variants mode mode' item)
  · exact congrArg BodyOutline.struct (names_of_fields mode mode' item)

/-- The mode does not change the outlines of types. -/
theorem outlines_of_types (mode mode' : FieldMode) (root : Node) :
    (typeEntries mode root).map TypeEntry.outline =
      (typeEntries mode' root).map TypeEntry.outline := by
  unfold typeEntries
  rw [List.map_map, List.map_map]
  refine List.map_congr_left fun (name, item) _ => ?_
  exact congrArg (TypeOutline.mk name) (outline_of_type_body mode mode' item)

/-! ## Settings -/

/-- Of the entries for all codes above a threshold, those above a higher one are the entries for the
codes above that. -/
theorem showing_filter {low high : Int} (h : low ≤ high) (root : Node) :
    (errorCodes high root).map ErrorEntry.showing =
      ((errorCodes low root).map ErrorEntry.showing).filter (high < ·.code) := by
  rw [error_codes_filter h, List.filter_map]
  rfl

/-- Of two descriptions of one source, whatever their settings, the outlines are the same. The types
differ only if one setting asks for structural types and the other does not, and the errors with the
higher threshold are those of the lower one whose code lies above it. -/
theorem settings_scope {source : Source} {settings settings' : GenerationSettings}
    {first second : Document} (hfirst : generate settings source = .ok first)
    (hsecond : generate settings' source = .ok second) :
    first.SameOutline second ∧
    (settings.structural = settings'.structural →
      first.instructions = second.instructions ∧ first.types = second.types) ∧
    (settings.threshold ≤ settings'.threshold →
      second.errors = first.errors.filter (settings'.threshold < ·.code)) := by
  obtain ⟨root, hroot, hdescribe⟩ := generate_eq_ok.1 hfirst
  obtain ⟨root', hroot', hdescribe'⟩ := generate_eq_ok.1 hsecond
  -- No setting has a say in parsing, so both descriptions are those of one tree.
  obtain rfl : root = root' := Except.ok.inj (hroot.symm.trans hroot')
  obtain ⟨_, rfl⟩ := describe_eq_some.1 hdescribe
  obtain ⟨_, rfl⟩ := describe_eq_some.1 hdescribe'
  refine ⟨⟨rfl, rfl, rfl, outlines_of_instructions _ _ root, outlines_of_types _ _ root⟩, ?_, ?_⟩
  · intro hstructural
    have hmode : settings.mode = settings'.mode := by
      rw [GenerationSettings.mode, GenerationSettings.mode, hstructural]
    rw [description, description, hmode]
    exact ⟨rfl, rfl⟩
  · exact fun hthreshold => showing_filter hthreshold root

/-- A source with a type that is read in two ways and with a code between two thresholds. -/
theorem settings_scope_nested : ∃ first second,
    generate ⟨500, false⟩ (.text (Text.ofString "struct S(Option<u8>);const C:u64=600;")) =
      .ok first ∧
    generate ⟨700, true⟩ (.text (Text.ofString "struct S(Option<u8>);const C:u64=600;")) =
      .ok second ∧
    first.SameOutline second ∧ second.errors = first.errors.filter (700 < ·.code) := by
  obtain ⟨first, hfirst⟩ := exists_of_generate ⟨500, false⟩
    (.text (Text.ofString "struct S(Option<u8>);const C:u64=600;")) (by decide +kernel)
  obtain ⟨second, hsecond⟩ := exists_of_generate ⟨700, true⟩
    (.text (Text.ofString "struct S(Option<u8>);const C:u64=600;")) (by decide +kernel)
  obtain ⟨houtline, _, herrors⟩ := settings_scope hfirst hsecond
  exact ⟨first, second, hfirst, hsecond, houtline, herrors (by decide)⟩

end ProgramInterface
