import ProgramInterface.Document
import ProgramInterface.Proofs.Json.Nesting

/-!
# Nesting of descriptions

How deep the types of a description are nested, and that its value is nested deeper than each of them
(`nesting_lt_of_mem_fields`).
-/

namespace ProgramInterface

mutual

/-- The greatest number of vectors, tuples and options around a part of a shape, the shape included. -/
def Shape.nesting : Shape → Nat
  | .primitive _ => 0
  | .named _ => 0
  | .vector element => element.nesting + 1
  | .tuple elements => shapesNesting elements + 1
  | .option inner => inner.nesting + 1

/-- The greatest number of vectors, tuples and options around a part of some shapes. -/
def shapesNesting : List Shape → Nat
  | [] => 0
  | shape :: rest => max shape.nesting (shapesNesting rest)

end

/-- The fields of what a type is made of and of its variants. -/
def TypeBody.allFields : TypeBody → List Field
  | struct fields => fields
  | enum variants => variants.flatMap fun variant => variant.fields.getD []

/-- All fields and arguments of a description. -/
def Document.fields (document : Document) : List Field :=
  document.instructions.flatMap (·.arguments) ++
    (document.accounts.flatMap (·.fields) ++ document.types.flatMap (·.body.allFields))

/-! ## Values -/

mutual

theorem shape_nesting_le : (shape : Shape) → shape.nesting ≤ shape.toJson.nesting
  | .primitive _ => Nat.zero_le _
  | .named _ => Nat.zero_le _
  | .vector element => by
      rw [Shape.nesting, Shape.toJson]
      exact Nat.lt_of_le_of_lt (shape_nesting_le element) (Json.nesting_record_lt (.head _))
  | .tuple elements => by
      rw [Shape.nesting, Shape.toJson]
      exact Nat.lt_of_le_of_lt (shapes_nesting_le elements) (Json.nesting_record_lt (.head _))
  | .option inner => by
      rw [Shape.nesting, Shape.toJson]
      exact Nat.lt_of_le_of_lt (shape_nesting_le inner) (Json.nesting_record_lt (.head _))

theorem shapes_nesting_le : (shapes : List Shape) →
    shapesNesting shapes ≤ (Json.Value.array (Shape.toJsons shapes)).nesting
  | [] => Nat.zero_le _
  | shape :: rest => by
      have hfirst := shape_nesting_le shape
      have hrest := shapes_nesting_le rest
      rw [Json.Value.nesting] at hrest ⊢
      rw [shapesNesting, Shape.toJsons, Json.itemsNesting]
      omega

end

variable {field : Field}

theorem nesting_lt_list {fields : List Field} (h : field ∈ fields) :
    field.type.nesting < (Field.listToJson fields).nesting := by
  have htype : field.type.toJson.nesting < field.toJson.nesting :=
    Json.nesting_record_lt (.tail _ (.head _))
  have hfield : field.toJson.nesting < (Field.listToJson fields).nesting :=
    Json.nesting_item_lt (List.mem_map_of_mem h)
  have hshape := shape_nesting_le field.type
  omega

theorem nesting_lt_struct {fields : List Field} (h : field ∈ fields) :
    field.type.nesting < (structToJson fields).nesting :=
  Nat.lt_trans (nesting_lt_list h) (Json.nesting_record_lt (.tail _ (.head _)))

theorem nesting_lt_variant {variant : Variant} (h : field ∈ variant.fields.getD []) :
    field.type.nesting < variant.toJson.nesting := by
  obtain ⟨name, fields⟩ := variant
  cases fields with
  | none => cases h
  | some fields =>
      exact Nat.lt_trans (nesting_lt_list h) (Json.nesting_record_lt (.tail _ (.head _)))

theorem nesting_lt_body {body : TypeBody} (h : field ∈ body.allFields) :
    field.type.nesting < body.toJson.nesting := by
  cases body with
  | struct fields => exact nesting_lt_struct h
  | enum variants =>
      obtain ⟨variant, hvariant, hfield⟩ := List.mem_flatMap.1 h
      have hvariants : variant.toJson.nesting <
          (Json.Value.array (variants.map Variant.toJson)).nesting :=
        Json.nesting_item_lt (List.mem_map_of_mem hvariant)
      exact Nat.lt_trans (nesting_lt_variant hfield)
        (Nat.lt_trans hvariants (Json.nesting_record_lt (.tail _ (.head _))))

/-- The value of a description is nested deeper than its types. -/
theorem nesting_lt_of_mem_fields {document : Document} (h : field ∈ document.fields) :
    field.type.nesting < document.toJson.nesting := by
  -- A catalogue is an array of records, each nested deeper than its fields.
  have hcatalogue : ∀ {α : Type} {toJson : α → Json.Value} {items : List α} {item : α} {name : String}
      {members : List (String × Json.Value)}, (name, .array (items.map toJson)) ∈ members →
      item ∈ items → field.type.nesting < (toJson item).nesting →
        field.type.nesting < (Json.Value.record members).nesting := by
    intro α toJson items item name members hmember hitem hfield
    have hitems : (toJson item).nesting < (Json.Value.array (items.map toJson)).nesting :=
      Json.nesting_item_lt (List.mem_map_of_mem hitem)
    exact Nat.lt_trans hfield (Nat.lt_trans hitems (Json.nesting_record_lt hmember))
  rcases List.mem_append.1 h with hargument | hother
  · obtain ⟨instruction, hinstruction, hfield⟩ := List.mem_flatMap.1 hargument
    refine hcatalogue (.tail _ (.tail _ (.head _))) hinstruction ?_
    exact Nat.lt_trans (nesting_lt_list hfield)
      (Json.nesting_record_lt (.tail _ (.tail _ (.head _))))
  rcases List.mem_append.1 hother with haccount | htype
  · obtain ⟨layout, hlayout, hfield⟩ := List.mem_flatMap.1 haccount
    refine hcatalogue (.tail _ (.tail _ (.tail _ (.head _)))) hlayout ?_
    exact Nat.lt_trans (nesting_lt_struct hfield) (Json.nesting_record_lt (.tail _ (.head _)))
  · obtain ⟨entry, hentry, hfield⟩ := List.mem_flatMap.1 htype
    refine hcatalogue (.tail _ (.tail _ (.tail _ (.tail _ (.head _))))) hentry ?_
    exact Nat.lt_trans (nesting_lt_body hfield) (Json.nesting_record_lt (.tail _ (.head _)))

end ProgramInterface
