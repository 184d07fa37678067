import ProgramInterface.Proofs.Description.WellFormed
import ProgramInterface.Proofs.Json.Value

/-!
# Values of descriptions come back

The value of a description is read back after it was written, if its error codes are short enough
(`document_returns`). Where code points beyond ASCII are escaped, its texts must hold no surrogate.
-/

namespace ProgramInterface

variable {asciiOnly : Bool}

mutual

theorem shape_returns : (shape : Shape) → (asciiOnly = true → shape.WellFormed) →
    shape.toJson.Returns asciiOnly
  | .primitive _, h => h
  | .named _, h => h
  | .vector element, h => Json.record_returns (by simp) (shape_returns element h)
  | .tuple elements, h => Json.record_returns (by simp) (shapes_return elements h)
  | .option inner, h => Json.record_returns (by simp) (shape_returns inner h)

theorem shapes_return : (shapes : List Shape) → (asciiOnly = true → ShapesWellFormed shapes) →
    Json.ItemsReturn asciiOnly (Shape.toJsons shapes)
  | [], _ => trivial
  | shape :: rest, h =>
    ⟨shape_returns shape fun hascii => (h hascii).1, shapes_return rest fun hascii => (h hascii).2⟩

end

theorem field_returns {field : Field} (h : asciiOnly = true → field.WellFormed) :
    field.toJson.Returns asciiOnly :=
  Json.record_returns (by simp)
    ⟨fun hascii => (h hascii).name, shape_returns field.type fun hascii => (h hascii).type⟩

theorem fields_return {fields : List Field} (h : asciiOnly = true → FieldsWellFormed fields) :
    (Field.listToJson fields).Returns asciiOnly :=
  Json.map_returns fun field hfield => field_returns fun hascii => h hascii field hfield

theorem account_ref_returns {account : AccountRef}
    (h : asciiOnly = true → Text.WellFormed account.name) :
    account.toJson.Returns asciiOnly :=
  Json.record_returns (by simp) ⟨h, trivial, trivial⟩

theorem instruction_returns {instruction : Instruction}
    (h : asciiOnly = true → instruction.WellFormed) :
    instruction.toJson.Returns asciiOnly :=
  Json.record_returns (by simp) ⟨fun hascii => (h hascii).name,
    Json.map_returns fun account haccount => account_ref_returns fun hascii =>
      (h hascii).accounts account haccount,
    fields_return fun hascii => (h hascii).arguments⟩

theorem struct_returns {fields : List Field} (h : asciiOnly = true → FieldsWellFormed fields) :
    (structToJson fields).Returns asciiOnly :=
  Json.record_returns (by simp)
    ⟨fun _ => Text.well_formed_of_string "struct", fields_return h⟩

theorem account_layout_returns {layout : AccountLayout}
    (h : asciiOnly = true → layout.WellFormed) : layout.toJson.Returns asciiOnly :=
  Json.record_returns (by simp)
    ⟨fun hascii => (h hascii).name, struct_returns fun hascii => (h hascii).fields⟩

theorem variant_returns {variant : Variant} (h : asciiOnly = true → variant.WellFormed) :
    variant.toJson.Returns asciiOnly := by
  unfold Variant.toJson
  split
  · exact Json.record_returns (by simp) fun hascii => (h hascii).name
  · rename_i fields hfields
    exact Json.record_returns (by simp) ⟨fun hascii => (h hascii).name,
      fields_return fun hascii => (h hascii).fields fields hfields⟩

theorem type_body_returns {body : TypeBody} (h : asciiOnly = true → body.WellFormed) :
    body.toJson.Returns asciiOnly := by
  cases body with
  | struct fields => exact struct_returns h
  | enum variants =>
      exact Json.record_returns (by simp) ⟨fun _ => Text.well_formed_of_string "enum",
        Json.map_returns fun variant hvariant => variant_returns fun hascii =>
          h hascii variant hvariant⟩

theorem type_entry_returns {entry : TypeEntry} (h : asciiOnly = true → entry.WellFormed) :
    entry.toJson.Returns asciiOnly :=
  Json.record_returns (by simp)
    ⟨fun hascii => (h hascii).name, type_body_returns fun hascii => (h hascii).body⟩

theorem error_entry_returns {entry : ErrorEntry} (hcode : IntegerText.fits entry.code = true)
    (h : asciiOnly = true → entry.WellFormed) : entry.toJson.Returns asciiOnly :=
  Json.record_returns (by simp)
    ⟨hcode, fun hascii => (h hascii).name, fun hascii => (h hascii).message⟩

/-- The value of a description comes back if its error codes can be written. -/
theorem document_returns {document : Document}
    (hcodes : ∀ entry ∈ document.errors, IntegerText.fits entry.code = true)
    (h : asciiOnly = true → document.WellFormed) : document.toJson.Returns asciiOnly :=
  Json.record_returns (by simp) ⟨fun hascii => (h hascii).version.1, fun hascii => (h hascii).name.1,
    Json.map_returns fun instruction hmem => instruction_returns fun hascii =>
      (h hascii).instructions instruction hmem,
    Json.map_returns fun layout hmem => account_layout_returns fun hascii =>
      (h hascii).accounts layout hmem,
    Json.map_returns fun entry hmem => type_entry_returns fun hascii =>
      (h hascii).types entry hmem,
    Json.map_returns fun entry hmem => error_entry_returns (hcodes entry hmem) fun hascii =>
      (h hascii).errors entry hmem⟩

/-- The value of a well-formed description comes back. -/
theorem Document.WellFormed.returns {document : Document} (h : document.WellFormed) :
    document.toJson.Returns true :=
  document_returns (fun entry hmem => (h.errors entry hmem).fits) fun _ => h

end ProgramInterface
