import ProgramInterface.Proofs.Catalogue.FirstByName
import ProgramInterface.Proofs.Description.Failure
import ProgramInterface.Proofs.Grammar.SourceNodes
import ProgramInterface.Proofs.Shape.Normalize
import ProgramInterface.Proofs.Text.WellFormed

/-!
# Well-formed descriptions

In a well-formed description no text holds a surrogate, version and name are not empty, and error
codes are natural numbers that are short enough to be shown. Every description that is generated is
well-formed (`generate_well_formed`).
-/

namespace ProgramInterface

/-! ## Definitions -/

mutual

/-- Whether the texts of a shape hold no surrogates. -/
def Shape.WellFormed : Shape → Prop
  | .primitive name => Text.WellFormed name
  | .named name => Text.WellFormed name
  | .vector element => element.WellFormed
  | .tuple elements => ShapesWellFormed elements
  | .option inner => inner.WellFormed

/-- Whether the texts of some shapes hold no surrogates. -/
def ShapesWellFormed : List Shape → Prop
  | [] => True
  | shape :: rest => shape.WellFormed ∧ ShapesWellFormed rest

end

/-- Whether the texts of a field hold no surrogates. -/
structure Field.WellFormed (field : Field) : Prop where
  name : Text.WellFormed field.name
  type : field.type.WellFormed

/-- Whether the texts of some fields hold no surrogates. -/
def FieldsWellFormed (fields : List Field) : Prop :=
  ∀ field ∈ fields, field.WellFormed

/-- Whether the texts of an instruction hold no surrogates. -/
structure Instruction.WellFormed (instruction : Instruction) : Prop where
  name : Text.WellFormed instruction.name
  accounts : ∀ account ∈ instruction.accounts, Text.WellFormed account.name
  arguments : FieldsWellFormed instruction.arguments

/-- Whether the texts of an account layout hold no surrogates. -/
structure AccountLayout.WellFormed (layout : AccountLayout) : Prop where
  name : Text.WellFormed layout.name
  fields : FieldsWellFormed layout.fields

/-- Whether the texts of a variant hold no surrogates. -/
structure Variant.WellFormed (variant : Variant) : Prop where
  name : Text.WellFormed variant.name
  fields : ∀ fields ∈ variant.fields, FieldsWellFormed fields

/-- Whether the texts of what a type is made of hold no surrogates. -/
def TypeBody.WellFormed : TypeBody → Prop
  | struct fields => FieldsWellFormed fields
  | enum variants => ∀ variant ∈ variants, variant.WellFormed

/-- Whether the texts of a type with its name hold no surrogates. -/
structure TypeEntry.WellFormed (entry : TypeEntry) : Prop where
  name : Text.WellFormed entry.name
  body : entry.body.WellFormed

/-- Whether an error code is a natural number that can be shown, and its texts hold no
surrogates. -/
structure ErrorEntry.WellFormed (entry : ErrorEntry) : Prop where
  nonneg : 0 ≤ entry.code
  fits : IntegerText.fits entry.code = true
  name : Text.WellFormed entry.name
  message : Text.WellFormed entry.message

/-- Whether a description is well-formed. -/
structure Document.WellFormed (document : Document) : Prop where
  version : Text.WellFormed document.version ∧ document.version ≠ []
  name : Text.WellFormed document.name ∧ document.name ≠ []
  instructions : ∀ instruction ∈ document.instructions, instruction.WellFormed
  accounts : ∀ layout ∈ document.accounts, layout.WellFormed
  types : ∀ entry ∈ document.types, entry.WellFormed
  errors : ∀ entry ∈ document.errors, entry.WellFormed

/-! ## Shapes of nodes -/

theorem shapes_well_formed_iff {shapes : List Shape} :
    ShapesWellFormed shapes ↔ ∀ shape ∈ shapes, shape.WellFormed := by
  induction shapes with
  | nil => simp [ShapesWellFormed]
  | cons shape rest ih => rw [ShapesWellFormed, List.forall_mem_cons, ih]

namespace Node

theorem vector_shape_well_formed {mode : FieldMode} {node : Node}
    (h : ∀ element, node.vectorElement? = some element → (element.shape mode).WellFormed) :
    (node.vectorShape mode).WellFormed := by
  unfold vectorShape
  split
  · cases helement : node.vectorElement? with
    | none => exact Text.well_formed_of_string "u8"
    | some element => exact h element helement
  · exact Text.well_formed_of_string node.text

/-- The shape of a node shows texts of the source only. -/
theorem shape_well_formed (mode : FieldMode) (node : Node) : (node.shape mode).WellFormed := by
  induction node using size_induction with
  | step node ih =>
      have hcontent : Text.WellFormed node.content := Text.well_formed_of_string node.text
      have hvector : (node.vectorShape mode).WellFormed := vector_shape_well_formed
        fun element helement => ih element (size_lt_of_vectorElement? helement)
      by_cases hprimitive : node.kind = .primitiveType
      · rw [shape_primitive hprimitive]
        exact hcontent
      cases mode with
      | account =>
          rw [shape_account hprimitive]
          exact hcontent
      | field =>
          rw [shape_field hprimitive]
          exact hvector
      | structural =>
          rcases shape_structural_cases node with
            ⟨hkind, _⟩ | ⟨_, htuple⟩ | ⟨argument, hargument, hoption⟩ | ⟨_, hshape⟩
          · exact absurd hkind hprimitive
          · rw [htuple]
            refine shapes_well_formed_iff.2 fun shape hshape => ?_
            obtain ⟨element, helement, rfl⟩ := List.mem_map.1 hshape
            exact ih element (size_lt_of_mem_argumentNodes helement)
          · rw [hoption]
            exact ih argument (size_lt_of_mem_typeArguments hargument)
          · rw [hshape]
            exact hvector

end Node

/-! ## Catalogues -/

theorem declared_field_well_formed {mode : FieldMode} {declaration : Node} {field : Field}
    (h : declaredField? mode declaration = some field) : field.WellFormed := by
  unfold declaredField? at h
  split at h
  · split at h
    · cases h
      exact ⟨(Text.well_formed_of_string _).lower_first, Node.shape_well_formed mode _⟩
    · cases h
  · cases h

theorem positioned_field_well_formed {mode : FieldMode} {index : Nat} {type : Node} {field : Field}
    (h : positionedField? mode index type = some field) : field.WellFormed := by
  unfold positionedField? at h
  split at h
  · cases h
    exact ⟨Text.well_formed_string_append.2 (Text.well_formed_of_nat index),
      Node.shape_well_formed mode type⟩
  · cases h

theorem fields_of_body_well_formed (mode : FieldMode) (body : Node) :
    FieldsWellFormed (fieldsOfBody mode body) := by
  intro field hfield
  unfold fieldsOfBody at hfield
  split at hfield
  · obtain ⟨declaration, _, hdeclared⟩ := List.mem_filterMap.1 hfield
    exact declared_field_well_formed hdeclared
  · obtain ⟨found, hfound, rfl⟩ := List.mem_filterMap.1 hfield
    obtain ⟨⟨type, index⟩, _, hpositioned⟩ := List.mem_map.1 hfound
    exact positioned_field_well_formed hpositioned
  · cases hfield

theorem fields_of_well_formed (mode : FieldMode) (item : Node) :
    FieldsWellFormed (fieldsOf mode item) := by
  unfold fieldsOf
  cases item.child? .body with
  | none => exact nofun
  | some body => exact fields_of_body_well_formed mode body

theorem instruction_name_well_formed {name : Text} (h : name.WellFormed) :
    (instructionName name).WellFormed := by
  unfold instructionName
  cases hdrop : Text.dropEnd? "Params" name with
  | none => exact h.lower_first
  | some kept => exact (h.drop_end hdrop).lower_first

theorem instruction_well_formed {mode : FieldMode} {root : Node} {instruction : Instruction}
    (h : instruction ∈ instructions mode root) : instruction.WellFormed := by
  unfold instructions at h
  split at h
  · cases h
  · rename_i entry _
    obtain ⟨item, _, hinstruction⟩ := List.mem_filterMap.1 h
    unfold instructionOf? at hinstruction
    split at hinstruction
    · cases hinstruction
    · split at hinstruction
      · cases hinstruction
        refine ⟨instruction_name_well_formed (Text.well_formed_of_string _), ?_,
          fields_of_well_formed mode item.node⟩
        intro account haccount
        rw [List.mem_singleton.1 haccount]
        exact Text.well_formed_of_string "account"
      · cases hinstruction

theorem account_layout_well_formed {root : Node} {layout : AccountLayout}
    (h : layout ∈ accountLayouts root) : layout.WellFormed := by
  obtain ⟨named, hnamed, rfl⟩ := List.mem_map.1 h
  refine ⟨?_, fields_of_well_formed .account named.2⟩
  show Text.WellFormed named.1
  rw [← name_of_mem_first_by_name hnamed]
  exact Text.well_formed_of_string _

theorem variant_of_well_formed (mode : FieldMode) (variant : Node) :
    (variantOf mode variant).WellFormed := by
  refine ⟨Text.well_formed_of_string _, fun fields hfields => ?_⟩
  obtain ⟨body, _, rfl⟩ := Option.map_eq_some_iff.1 hfields
  exact fields_of_body_well_formed mode body

theorem type_body_of_well_formed (mode : FieldMode) (item : Node) :
    (typeBodyOf mode item).WellFormed := by
  unfold typeBodyOf
  split
  · intro variant hvariant
    unfold variantsOf at hvariant
    cases hbody : item.child? .body with
    | none => simp [hbody] at hvariant
    | some body =>
        simp only [hbody, Option.elim_some] at hvariant
        obtain ⟨node, _, rfl⟩ := List.mem_map.1 hvariant
        exact variant_of_well_formed mode node
  · exact fields_of_well_formed mode item

theorem type_entry_well_formed {mode : FieldMode} {root : Node} {entry : TypeEntry}
    (h : entry ∈ typeEntries mode root) : entry.WellFormed := by
  obtain ⟨named, hnamed, rfl⟩ := List.mem_map.1 h
  refine ⟨?_, type_body_of_well_formed mode named.2⟩
  show Text.WellFormed named.1
  rw [← name_of_mem_first_by_name hnamed]
  exact Text.well_formed_of_string _

theorem showing_well_formed {code : Int} (hnonneg : 0 ≤ code)
    (hfits : IntegerText.fits code = true) : (ErrorEntry.showing code).WellFormed where
  nonneg := hnonneg
  fits := hfits
  name := Text.well_formed_string_append.2 (Text.well_formed_of_int code)
  message := Text.well_formed_string_append.2 (Text.well_formed_of_int code)

theorem program_name_well_formed (root : Node) :
    (programName root).WellFormed ∧ programName root ≠ [] := by
  unfold programName
  split
  · exact ⟨Text.well_formed_of_string _, by decide⟩
  · dsimp only
    split
    · exact ⟨Text.well_formed_of_string _, by decide⟩
    · exact ⟨Text.well_formed_append_string.2 (Text.well_formed_of_string _),
        List.append_ne_nil_of_right_ne_nil _ (by decide)⟩

/-! ## Descriptions -/

/-- The description of a tree whose integer literals are texts of integers is well-formed. -/
theorem describe_well_formed {settings : GenerationSettings} {root : Node} {document : Document}
    (hread : root.LiteralsRead) (h : describe? settings root = some document) :
    document.WellFormed := by
  obtain ⟨hfits, rfl⟩ := describe_eq_some.1 h
  exact {
    version := ⟨Text.well_formed_of_string _, (by decide : formatVersion ≠ [])⟩
    name := program_name_well_formed root
    instructions := fun _ => instruction_well_formed
    accounts := fun _ => account_layout_well_formed
    types := fun _ => type_entry_well_formed
    errors := by
      intro entry hentry
      obtain ⟨code, hcode, rfl⟩ := List.mem_map.1 hentry
      exact showing_well_formed (error_codes_nonneg hread hcode)
        (IntegerText.fits_iff.2 (hfits code hcode)) }

/-- Every description that is generated is well-formed. -/
theorem generate_well_formed {settings : GenerationSettings} {source : Source}
    {document : Document} (h : generate settings source = .ok document) : document.WellFormed := by
  obtain ⟨root, hparse, hdescribe⟩ := generate_eq_ok.1 h
  exact describe_well_formed (parse_literals_read hparse) hdescribe

end ProgramInterface
