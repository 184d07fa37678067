import ProgramInterface.Proofs.Description.Value

/-!
# Nothing of a description is lost

Two descriptions are written as texts that decode to the same value only if they are equal, primitive
and named types aside, which are written alike (`encoding_lossless`). Neither the indentation nor the
order of members matters to that, and any texts may stand in them.
-/

namespace ProgramInterface

/-! ## Primitive types as named ones -/

mutual

/-- A shape with its primitive types as named ones. -/
def Shape.asNamed : Shape → Shape
  | .primitive name => .named name
  | .named name => .named name
  | .vector element => .vector element.asNamed
  | .tuple elements => .tuple (shapesAsNamed elements)
  | .option inner => .option inner.asNamed

/-- Some shapes with their primitive types as named ones. -/
def shapesAsNamed : List Shape → List Shape
  | [] => []
  | shape :: rest => shape.asNamed :: shapesAsNamed rest

end

/-- A field with its primitive types as named ones. -/
def Field.asNamed (field : Field) : Field :=
  { field with type := field.type.asNamed }

/-- An instruction with its primitive types as named ones. -/
def Instruction.asNamed (instruction : Instruction) : Instruction :=
  { instruction with arguments := instruction.arguments.map Field.asNamed }

/-- An account layout with its primitive types as named ones. -/
def AccountLayout.asNamed (layout : AccountLayout) : AccountLayout :=
  { layout with fields := layout.fields.map Field.asNamed }

/-- A variant with its primitive types as named ones. -/
def Variant.asNamed (variant : Variant) : Variant :=
  { variant with fields := variant.fields.map (·.map Field.asNamed) }

/-- What a type is made of, with its primitive types as named ones. -/
def TypeBody.asNamed : TypeBody → TypeBody
  | .struct fields => .struct (fields.map Field.asNamed)
  | .enum variants => .enum (variants.map Variant.asNamed)

/-- A type with its primitive types as named ones. -/
def TypeEntry.asNamed (entry : TypeEntry) : TypeEntry :=
  { entry with body := entry.body.asNamed }

/-- A description with its primitive types as named ones. -/
def Document.asNamed (document : Document) : Document :=
  { document with
    instructions := document.instructions.map Instruction.asNamed
    accounts := document.accounts.map AccountLayout.asNamed
    types := document.types.map TypeEntry.asNamed }

/-! ## They are written alike -/

mutual

theorem shape_as_named_to_json : (shape : Shape) → shape.asNamed.toJson = shape.toJson
  | .primitive _ => rfl
  | .named _ => rfl
  | .vector element => by rw [Shape.asNamed, Shape.toJson, shape_as_named_to_json element, Shape.toJson]
  | .tuple elements => by
      rw [Shape.asNamed, Shape.toJson, shapes_as_named_to_json elements, Shape.toJson]
  | .option inner => by rw [Shape.asNamed, Shape.toJson, shape_as_named_to_json inner, Shape.toJson]

theorem shapes_as_named_to_json : (shapes : List Shape) →
    Shape.toJsons (shapesAsNamed shapes) = Shape.toJsons shapes
  | [] => rfl
  | shape :: rest => by
      rw [shapesAsNamed, Shape.toJsons, shape_as_named_to_json shape,
        shapes_as_named_to_json rest, Shape.toJsons]

end

theorem field_as_named_to_json (field : Field) : field.asNamed.toJson = field.toJson := by
  rw [Field.toJson, Field.toJson, Field.asNamed, shape_as_named_to_json]

theorem map_as_named {α β : Type} {toJson : α → β} {asNamed : α → α}
    (h : ∀ a, toJson (asNamed a) = toJson a) (items : List α) :
    (items.map asNamed).map toJson = items.map toJson := by
  rw [List.map_map]
  exact List.map_congr_left fun a _ => h a

theorem fields_as_named_to_json (fields : List Field) :
    Field.listToJson (fields.map Field.asNamed) = Field.listToJson fields := by
  rw [Field.listToJson, map_as_named field_as_named_to_json, Field.listToJson]

theorem instruction_as_named_to_json (instruction : Instruction) :
    instruction.asNamed.toJson = instruction.toJson := by
  simp only [Instruction.toJson, Instruction.asNamed, fields_as_named_to_json]

theorem account_layout_as_named_to_json (layout : AccountLayout) :
    layout.asNamed.toJson = layout.toJson := by
  simp only [AccountLayout.toJson, AccountLayout.asNamed, structToJson, fields_as_named_to_json]

theorem variant_as_named_to_json (variant : Variant) :
    variant.asNamed.toJson = variant.toJson := by
  obtain ⟨name, fields⟩ := variant
  cases fields with
  | none => rfl
  | some fields => simp only [Variant.toJson, Variant.asNamed, Option.map_some, fields_as_named_to_json]

theorem type_body_as_named_to_json (body : TypeBody) : body.asNamed.toJson = body.toJson := by
  cases body with
  | struct fields => simp only [TypeBody.toJson, TypeBody.asNamed, structToJson, fields_as_named_to_json]
  | enum variants =>
      simp only [TypeBody.toJson, TypeBody.asNamed, map_as_named variant_as_named_to_json]

theorem type_entry_as_named_to_json (entry : TypeEntry) : entry.asNamed.toJson = entry.toJson := by
  simp only [TypeEntry.toJson, TypeEntry.asNamed, type_body_as_named_to_json]

/-- A description is written as the one with its primitive types as named ones. -/
theorem document_as_named_to_json (document : Document) :
    document.asNamed.toJson = document.toJson := by
  simp only [Document.toJson, Document.asNamed, map_as_named instruction_as_named_to_json,
    map_as_named account_layout_as_named_to_json, map_as_named type_entry_as_named_to_json]

/-! ## Nothing else is -/

open Json (same_single same_member same_record same_object same_text same_bool same_int map_eq_of_same)

mutual

theorem shape_of_same : (shape other : Shape) → shape.toJson.Same other.toJson →
    shape.asNamed = other.asNamed
  | .primitive _, other, h => by cases other <;> cases h <;> rfl
  | .named _, other, h => by cases other <;> cases h <;> rfl
  | .vector element, other, h => by
      cases other with
      | primitive => obtain ⟨_, heq, _⟩ := h; cases heq
      | named => obtain ⟨_, heq, _⟩ := h; cases heq
      | vector found => exact congrArg Shape.vector (shape_of_same element found (same_single h).2)
      | tuple => exact absurd (same_single h).1 (by decide)
      | option => exact absurd (same_single h).1 (by decide)
  | .tuple elements, other, h => by
      cases other with
      | primitive => obtain ⟨_, heq, _⟩ := h; cases heq
      | named => obtain ⟨_, heq, _⟩ := h; cases heq
      | vector => exact absurd (same_single h).1 (by decide)
      | tuple found =>
          obtain ⟨_, heq, hitems⟩ := (same_single h).2
          cases heq
          exact congrArg Shape.tuple (shapes_of_same elements found hitems)
      | option => exact absurd (same_single h).1 (by decide)
  | .option inner, other, h => by
      cases other with
      | primitive => obtain ⟨_, heq, _⟩ := h; cases heq
      | named => obtain ⟨_, heq, _⟩ := h; cases heq
      | vector => exact absurd (same_single h).1 (by decide)
      | tuple => exact absurd (same_single h).1 (by decide)
      | option found => exact congrArg Shape.option (shape_of_same inner found (same_single h).2)

theorem shapes_of_same : (shapes others : List Shape) →
    Json.ItemsSame (Shape.toJsons shapes) (Shape.toJsons others) →
      shapesAsNamed shapes = shapesAsNamed others
  | [], [], _ => rfl
  | [], _ :: _, h => nomatch h
  | _ :: _, [], h => by obtain ⟨_, _, heq, _⟩ := h; cases heq
  | shape :: rest, other :: behind, h => by
      obtain ⟨_, _, heq, hfirst, hrest⟩ := h
      cases heq
      rw [shapesAsNamed, shape_of_same shape other hfirst, shapes_of_same rest behind hrest,
        shapesAsNamed]

end

theorem field_of_same {field other : Field} (h : field.toJson.Same other.toJson) :
    field.asNamed = other.asNamed := by
  have hmembers := same_record h rfl (by simp)
  simp only [List.forall₂_cons, List.forall₂_nil_right_iff, and_true, same_text] at hmembers
  obtain ⟨hname, htype⟩ := hmembers
  rw [Field.asNamed, Field.asNamed, hname, shape_of_same _ _ htype]

theorem fields_of_same {fields others : List Field}
    (h : (Field.listToJson fields).Same (Field.listToJson others)) :
    fields.map Field.asNamed = others.map Field.asNamed :=
  map_eq_of_same (fun _ _ => field_of_same) h

theorem account_ref_of_same {account other : AccountRef} (h : account.toJson.Same other.toJson) :
    account = other := by
  have hmembers := same_record h rfl (by simp)
  simp only [List.forall₂_cons, List.forall₂_nil_right_iff, and_true, same_text, same_bool]
    at hmembers
  obtain ⟨name, isMutable, isSigner⟩ := account
  obtain ⟨rfl, rfl, rfl⟩ := hmembers
  rfl

theorem instruction_of_same {instruction other : Instruction}
    (h : instruction.toJson.Same other.toJson) : instruction.asNamed = other.asNamed := by
  have hmembers := same_record h rfl (by simp)
  simp only [List.forall₂_cons, List.forall₂_nil_right_iff, and_true, same_text] at hmembers
  obtain ⟨hname, haccounts, harguments⟩ := hmembers
  have haccounts := map_eq_of_same (fun _ _ h => congrArg id (account_ref_of_same h)) haccounts
  rw [List.map_id, List.map_id] at haccounts
  rw [Instruction.asNamed, Instruction.asNamed, hname, haccounts, fields_of_same harguments]

theorem struct_of_same {fields others : List Field}
    (h : (structToJson fields).Same (structToJson others)) :
    fields.map Field.asNamed = others.map Field.asNamed := by
  have hmembers := same_record h rfl (by simp)
  simp only [List.forall₂_cons, List.forall₂_nil_right_iff, and_true] at hmembers
  exact fields_of_same hmembers.2

theorem account_layout_of_same {layout other : AccountLayout}
    (h : layout.toJson.Same other.toJson) : layout.asNamed = other.asNamed := by
  have hmembers := same_record h rfl (by simp)
  simp only [List.forall₂_cons, List.forall₂_nil_right_iff, and_true, same_text] at hmembers
  obtain ⟨hname, hfields⟩ := hmembers
  rw [AccountLayout.asNamed, AccountLayout.asNamed, hname, struct_of_same hfields]

/-- A variant without fields is not taken for one with an empty list of them, since the two have
different numbers of members. -/
theorem variant_of_same {variant other : Variant} (h : variant.toJson.Same other.toJson) :
    variant.asNamed = other.asNamed := by
  obtain ⟨name, fields⟩ := variant
  obtain ⟨otherName, otherFields⟩ := other
  cases fields with
  | none =>
      cases otherFields with
      | none =>
          obtain rfl := same_text.1 (same_single h).2
          rfl
      | some otherFields => cases (same_object h).1
  | some fields =>
      cases otherFields with
      | none => cases (same_object h).1
      | some otherFields =>
          have hmembers := same_record h rfl (by simp)
          simp only [List.forall₂_cons, List.forall₂_nil_right_iff, and_true, same_text]
            at hmembers
          obtain ⟨rfl, hfields⟩ := hmembers
          simp only [Variant.asNamed, Option.map_some, fields_of_same hfields]

theorem type_body_of_same {body other : TypeBody} (h : body.toJson.Same other.toJson) :
    body.asNamed = other.asNamed := by
  -- The first members tell structs and enumerations apart.
  have hkinds : ∀ {fields : List Field} {variants : List Variant},
      ¬ (TypeBody.struct fields).toJson.Same (TypeBody.enum variants).toJson ∧
        ¬ (TypeBody.enum variants).toJson.Same (TypeBody.struct fields).toJson := by
    intro fields variants
    constructor <;> intro h <;>
    · have hword := same_member h (by simp) (List.mem_cons_self ..) (List.mem_cons_self ..)
      exact absurd (Text.of_string_injective (same_text.1 hword)) (by decide)
  cases body with
  | struct fields =>
      cases other with
      | struct others => exact congrArg TypeBody.struct (struct_of_same h)
      | enum variants => exact absurd h hkinds.1
  | enum variants =>
      cases other with
      | struct fields => exact absurd h hkinds.2
      | enum others =>
          have hmembers := same_record h rfl (by simp)
          simp only [List.forall₂_cons, List.forall₂_nil_right_iff, and_true] at hmembers
          exact congrArg TypeBody.enum (map_eq_of_same (fun _ _ => variant_of_same) hmembers.2)

theorem type_entry_of_same {entry other : TypeEntry} (h : entry.toJson.Same other.toJson) :
    entry.asNamed = other.asNamed := by
  have hmembers := same_record h rfl (by simp)
  simp only [List.forall₂_cons, List.forall₂_nil_right_iff, and_true, same_text] at hmembers
  obtain ⟨hname, hbody⟩ := hmembers
  rw [TypeEntry.asNamed, TypeEntry.asNamed, hname, type_body_of_same hbody]

theorem error_entry_of_same {entry other : ErrorEntry} (h : entry.toJson.Same other.toJson) :
    entry = other := by
  have hmembers := same_record h rfl (by simp)
  simp only [List.forall₂_cons, List.forall₂_nil_right_iff, and_true, same_text, same_int]
    at hmembers
  obtain ⟨code, name, message⟩ := entry
  obtain ⟨rfl, rfl, rfl⟩ := hmembers
  rfl

/-- Descriptions have the same value only if they are equal up to primitive types. -/
theorem document_of_same {document other : Document} (h : document.toJson.Same other.toJson) :
    document.asNamed = other.asNamed := by
  have hmembers := same_record h rfl (by simp)
  simp only [List.forall₂_cons, List.forall₂_nil_right_iff, and_true, same_text] at hmembers
  obtain ⟨hversion, hname, hinstructions, haccounts, htypes, herrors⟩ := hmembers
  have herrors := map_eq_of_same (fun _ _ h => congrArg id (error_entry_of_same h)) herrors
  rw [List.map_id, List.map_id] at herrors
  rw [Document.asNamed, Document.asNamed, hversion, hname, herrors,
    map_eq_of_same (fun _ _ => instruction_of_same) hinstructions,
    map_eq_of_same (fun _ _ => account_layout_of_same) haccounts,
    map_eq_of_same (fun _ _ => type_entry_of_same) htypes]

/-! ## Texts -/

theorem are_writable_iff {items : List Json.Value} :
    Json.areWritable items = true ↔ ∀ item ∈ items, item.isWritable = true := by
  induction items with
  | nil => simp [Json.areWritable]
  | cons item rest ih => rw [Json.areWritable, Bool.and_eq_true, List.forall_mem_cons, ih]

/-- A description that can be written decodes to its value. -/
theorem document_returns_plain {document : Document} {indent : Option Int} {text : Text}
    (h : document.encode? indent = some text) :
    document.toJson.Returns false ∧
      text = document.toJson.write (Document.layout indent) 0 := by
  unfold Document.encode? Json.Value.encode? at h
  split at h
  · rename_i hwritable
    refine ⟨document_returns (fun entry hentry => ?_) nofun, (Option.some.inj h).symm⟩
    simp only [Document.toJson, Json.Value.record, List.map_cons, List.map_nil,
      Json.Value.isWritable, Json.membersWritable, Bool.and_eq_true, are_writable_iff] at hwritable
    obtain ⟨_, _, _, _, _, herrors, _⟩ := hwritable
    have hentry := herrors _ (List.mem_map_of_mem hentry)
    simp only [ErrorEntry.toJson, Json.Value.record, List.map_cons, List.map_nil,
      Json.Value.isWritable, Json.membersWritable, Bool.and_eq_true] at hentry
    exact hentry.1
  · cases h

/-- Any two descriptions that are written, with whatever indentations, decode to values, and these are
the same, be it with or without regard to the order of members, if and only if the descriptions are
equal up to primitive types. Without indentation the text is one line. -/
theorem encoding_lossless {document other : Document} {indent otherIndent : Option Int}
    {text otherText : Text} (h : document.encode? indent = some text)
    (hother : other.encode? otherIndent = some otherText) :
    (∃ value found, Json.read .plain text = .ok value ∧ Json.read .plain otherText = .ok found ∧
      (value = found ↔ document.asNamed = other.asNamed) ∧
      (value.Same found ↔ document.asNamed = other.asNamed)) ∧
    (indent = some 0 → .scalar '\n' ∉ text ∧ .scalar '\r' ∉ text) := by
  obtain ⟨hreturns, rfl⟩ := document_returns_plain h
  obtain ⟨hotherReturns, rfl⟩ := document_returns_plain hother
  refine ⟨⟨document.toJson, other.toJson, Json.read_write hreturns (Json.admits_plain _) 0,
    Json.read_write hotherReturns (Json.admits_plain _) 0, ?_, document_of_same, fun hnamed => ?_⟩, ?_⟩
  · refine ⟨fun heq => document_of_same ?_, fun hnamed => ?_⟩
    · rw [← heq]
      exact hreturns.same_refl
    · rw [← document_as_named_to_json document, hnamed, document_as_named_to_json]
  · rw [← document_as_named_to_json other, ← hnamed, document_as_named_to_json]
    exact hreturns.same_refl
  · rintro rfl
    have hline : ∀ x ∈ document.toJson.write (Document.layout (some 0)) 0, _ :=
      hreturns.one_line_write rfl
    exact ⟨fun hmem => (hline _ hmem).1 rfl, fun hmem => (hline _ hmem).2 rfl⟩

/-- A description whose name holds a quotation mark and a line end, with a field of a given type. -/
def quotedDescription (type : Shape) : Document :=
  ⟨formatVersion, "a\"\n", [], [⟨"A", [⟨"x", type⟩]⟩], [], [⟨600, "CustomError600", []⟩]⟩

/-- A primitive and a named type of one name are written on one line and on several so that the texts
decode to one value. -/
theorem encoding_lossless_spelling : ∃ text otherText value,
    (quotedDescription (.primitive "u8")).encode? (some 0) = some text ∧
    (quotedDescription (.named "u8")).encode? (some (-1)) = some otherText ∧
    Json.read .plain text = .ok value ∧ Json.read .plain otherText = .ok value ∧
    .scalar '\n' ∉ text := by
  have hsome : ∀ indent type, (quotedDescription type).toJson.isWritable = true →
      ∃ text, (quotedDescription type).encode? indent = some text := fun indent type hwritable =>
    ⟨_, if_pos hwritable⟩
  obtain ⟨text, htext⟩ := hsome (some 0) (.primitive "u8") (by decide +kernel)
  obtain ⟨otherText, hother⟩ := hsome (some (-1)) (.named "u8") (by decide +kernel)
  obtain ⟨⟨value, found, hvalue, hfound, heq, _⟩, hline⟩ := encoding_lossless htext hother
  obtain rfl := heq.2 rfl
  exact ⟨text, otherText, value, htext, hother, hvalue, hfound, (hline rfl).1⟩

end ProgramInterface
