import ProgramInterface.Proofs.Description.Value
import ProgramInterface.Proofs.Schema.Document

/-!
# Generated descriptions fit the schema

The schema of descriptions accepts every description that is generated, as an object and as the text it
is written as, and gives back exactly the value of the description (`generate_round_trip`), unless it is
nested beyond the limits for objects or texts.
-/

namespace ProgramInterface

/-! ## Descriptions and the schema -/

/-- A text that a value without surrogates was written as is checked as the value. -/
theorem check_document_text {v : Json.Value} (h : v.Returns true)
    (hnesting : v.nesting ≤ Json.nestingLimit) (layout : Json.Layout) :
    Schema.checkDocumentText (v.write layout 0) = Schema.document.check .text v := by
  have hplain : (v.write layout 0).any CodePoint.isSurrogate = false := by
    rw [List.any_eq_false]
    exact fun c hc => by simp [h.well_formed_write c hc]
  rw [Schema.checkDocumentText, hplain,
    Json.read_write h.any_layout (Json.admits_strict_iff.2 hnesting) 0]
  rfl

/-- A well-formed description fits the schema, as an object and as text. -/
theorem Document.WellFormed.round_trip {document : Document} (h : document.WellFormed)
    (indent : Option Int) :
    (Schema.Origin.object.AdmitsFields document.fields →
      Schema.checkObject document.toJson = .ok document.toJson) ∧
      ∃ text, document.encode? indent = some text ∧
        (document.toJson.nesting ≤ Json.nestingLimit →
          Schema.checkDocumentText text = .ok document.toJson) := by
  have hreturns : document.toJson.Returns true := h.returns
  refine ⟨Schema.check_document h.version h.name,
    document.toJson.write (layout indent) 0, ?_, fun hnesting => ?_⟩
  · rw [encode?, Json.Value.encode?, if_pos hreturns.is_writable]
  · rw [check_document_text hreturns hnesting]
    exact Schema.check_document h.version h.name fun _ _ => rfl

/-- The schema accepts every description that is generated, as an object and as the text it is
written as with any indentation, and gives back its value. -/
theorem generate_round_trip {settings : GenerationSettings} {source : Source}
    {document : Document} (h : generate settings source = .ok document) (indent : Option Int) :
    (Schema.Origin.object.AdmitsFields document.fields →
      Schema.checkObject document.toJson = .ok document.toJson) ∧
      ∃ text, document.encode? indent = some text ∧
        (document.toJson.nesting ≤ Json.nestingLimit →
          Schema.checkDocumentText text = .ok document.toJson) :=
  (generate_well_formed h).round_trip indent

/-- A description that is not nested beyond the limit of texts is not nested beyond that of objects. -/
theorem admits_fields_of_nesting {document : Document}
    (h : document.toJson.nesting ≤ Json.nestingLimit) :
    Schema.Origin.object.AdmitsFields document.fields := by
  intro field hfield
  have hlt := nesting_lt_of_mem_fields hfield
  unfold Json.nestingLimit at h
  exact decide_eq_true (by unfold Schema.nestingLimit; omega)

/-- Whether a source has a description that is not nested beyond the limit of texts. -/
def isShallow (settings : GenerationSettings) (source : Source) : Bool :=
  match generate settings source with
  | .ok document => document.toJson.nesting ≤ Json.nestingLimit
  | .error _ => false

theorem exists_of_shallow (settings : GenerationSettings) (source : Source)
    (h : isShallow settings source = true) : ∃ document,
      generate settings source = .ok document ∧ document.toJson.nesting ≤ Json.nestingLimit := by
  unfold isShallow at h
  split at h
  · exact ⟨_, ‹_›, of_decide_eq_true h⟩
  · cases h

/-- A source with a nested type, a variant without fields and an error code. -/
theorem round_trip_nested : ∃ document,
    generate ⟨500, true⟩
        (.text (Text.ofString "enum E\x7bA,B(Vec<(u8,T)>)\x7d const C:u64=600;")) =
      .ok document ∧
    Schema.checkObject document.toJson = .ok document.toJson ∧
      ∃ text, document.encode? (some 2) = some text ∧
        Schema.checkDocumentText text = .ok document.toJson := by
  obtain ⟨document, hdocument, hnesting⟩ := exists_of_shallow ⟨500, true⟩
    (.text (Text.ofString "enum E\x7bA,B(Vec<(u8,T)>)\x7d const C:u64=600;")) (by decide +kernel)
  obtain ⟨hobject, text, hencode, htext⟩ := generate_round_trip hdocument (some 2)
  exact ⟨document, hdocument, hobject (admits_fields_of_nesting hnesting), text, hencode,
    htext hnesting⟩

end ProgramInterface
