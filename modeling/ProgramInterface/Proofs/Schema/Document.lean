import ProgramInterface.Proofs.Description.Nesting
import ProgramInterface.Proofs.Schema.Check
import ProgramInterface.Schema.Document

/-!
# Descriptions fit the schema

The value of a description is in the normal form of the schema of descriptions, so checking gives it
back as it is (`check_document`). Of the description only its version and name need to be texts
without surrogates, and not empty, and its types must not be nested too deep for a value that comes as
an object.
-/

namespace ProgramInterface

namespace Schema

variable {origin : Origin} {depth : Nat}

theorem Origin.admits_of_le {height : Nat} (h : origin.admits depth = true) (hle : height ≤ depth) :
    origin.admits height = true := by
  cases origin with
  | text => rfl
  | object => exact decide_eq_true (Nat.le_trans hle (of_decide_eq_true h))

/-! ## Types -/

/-- The only member of a record is found. -/
theorem lookup_single (name : Text) (value : Json.Value) :
    Json.Value.lookup? name [(name, value)] = some value := by
  simp [Json.Value.lookup?]

theorem lookup_single_ne {name key : Text} (h : key ≠ name) (value : Json.Value) :
    Json.Value.lookup? name [(key, value)] = none :=
  if_neg h

theorem check_type_vec {value : Json.Value} (hadmits : origin.admits (depth + 1) = true)
    (h : checkType origin (depth + 1) value = .ok value) :
    checkType origin depth (.record [("vec", value)]) = .ok (.record [("vec", value)]) := by
  show checkType origin depth (.object [(Text.ofString "vec", value)]) = _
  rw [check_type_object hadmits, typeChecks, typeForms, List.zip_cons_cons, lookup_single,
    Option.map_some, h, single_ok, first_of_ok]
  rfl

theorem check_type_tuple {items : List Json.Value} (hadmits : origin.admits (depth + 1) = true)
    (h : ∀ item ∈ items, checkType origin (depth + 1) item = .ok item) :
    checkType origin depth (.record [("tuple", .array items)]) =
      .ok (.record [("tuple", .array items)]) := by
  show checkType origin depth (.object [(Text.ofString "tuple", .array items)]) = _
  have hfound : foundName? ["tuple", "items"] [(Text.ofString "tuple", .array items)] =
      some (Text.ofString "tuple") := by
    unfold foundName?
    rw [List.find?_cons, lookup_single]
    rfl
  have helements : checkElements origin (depth + 1) (.array items) = .ok (.array items) :=
    gather_items h
  rw [check_type_object hadmits, typeChecks, hfound, typeForms, List.zip_cons_cons,
    lookup_single_ne (by decide), Option.map_none]
  obtain ⟨more, hmore⟩ := first_of_missing [notTextFault] "IdlVec" "vec" "vec"
    [(Text.ofString "tuple", .array items)] _
  rw [hmore, List.zip_cons_cons, Option.bind_some, lookup_single, Option.map_some, helements,
    Option.getD_some, single_ok, first_of_ok]
  rfl

/-- A record whose only member makes it neither a vector nor a tuple is tried as an option and as a
named type. -/
theorem check_type_behind_tuple {key : Text} (hadmits : origin.admits (depth + 1) = true)
    (hvector : key ≠ Text.ofString "vec") (htuple : key ≠ Text.ofString "tuple")
    (hitems : key ≠ Text.ofString "items") (value : Json.Value) :
    ∃ faults, checkType origin depth (.object [(key, value)]) =
      firstOf faults
        [("IdlOption", single "option" "option" [(key, value)]
            ((Json.Value.lookup? "option" [(key, value)]).map (checkType origin (depth + 1)))),
          ("IdlDefined", single "defined" "defined" [(key, value)]
            ((Json.Value.lookup? "defined" [(key, value)]).map (checkText 1 none)))] := by
  have hfound : foundName? ["tuple", "items"] [(key, value)] = none := by
    unfold foundName?
    rw [List.find?_cons, lookup_single_ne htuple, List.find?_cons, lookup_single_ne hitems]
    rfl
  rw [check_type_object hadmits, typeChecks, hfound, lookup_single_ne hvector]
  obtain ⟨more, hskip⟩ := first_of_missing [notTextFault] "IdlVec" "vec" "vec" [(key, value)] _
  obtain ⟨faults, hskipNext⟩ := first_of_missing more "IdlTuple" "tuple" [] [(key, value)] _
  exact ⟨faults, hskip.trans hskipNext⟩

theorem check_type_option {value : Json.Value} (hadmits : origin.admits (depth + 1) = true)
    (h : checkType origin (depth + 1) value = .ok value) :
    checkType origin depth (.record [("option", value)]) = .ok (.record [("option", value)]) := by
  show checkType origin depth (.object [(Text.ofString "option", value)]) = _
  obtain ⟨faults, hchecks⟩ := check_type_behind_tuple hadmits
    (by decide : Text.ofString "option" ≠ _) (by decide) (by decide) value
  rw [hchecks, lookup_single, Option.map_some, h, single_ok, first_of_ok]
  rfl

theorem check_type_defined {value : Json.Value} (hadmits : origin.admits (depth + 1) = true)
    (h : checkText 1 none value = .ok value) :
    checkType origin depth (.record [("defined", value)]) = .ok (.record [("defined", value)]) := by
  show checkType origin depth (.object [(Text.ofString "defined", value)]) = _
  obtain ⟨faults, hchecks⟩ := check_type_behind_tuple hadmits
    (by decide : Text.ofString "defined" ≠ _) (by decide) (by decide) value
  obtain ⟨more, hoption⟩ := first_of_missing faults "IdlOption" "option" "option"
    [(Text.ofString "defined", value)] _
  rw [hchecks, lookup_single_ne (by decide), Option.map_none, hoption, lookup_single,
    Option.map_some, h, single_ok, first_of_ok]
  rfl

mutual

/-- The value of a shape is in normal form where its nesting is admitted. -/
theorem check_type_shape : {depth : Nat} → (shape : Shape) →
    origin.admits (depth + shape.nesting) = true →
      checkType origin depth shape.toJson = .ok shape.toJson
  | _, .primitive name, _ => by rw [Shape.toJson, checkType]
  | _, .named name, _ => by rw [Shape.toJson, checkType]
  | depth, .vector element, h => by
      rw [Shape.nesting] at h
      rw [Shape.toJson]
      refine check_type_vec (Origin.admits_of_le h (by omega)) (check_type_shape element ?_)
      exact Origin.admits_of_le h (by omega)
  | depth, .tuple elements, h => by
      rw [Shape.nesting] at h
      rw [Shape.toJson]
      refine check_type_tuple (Origin.admits_of_le h (by omega)) (check_type_shapes elements ?_)
      exact Origin.admits_of_le h (by omega)
  | depth, .option inner, h => by
      rw [Shape.nesting] at h
      rw [Shape.toJson]
      refine check_type_option (Origin.admits_of_le h (by omega)) (check_type_shape inner ?_)
      exact Origin.admits_of_le h (by omega)

/-- The values of some shapes are in normal form where their nesting is admitted. -/
theorem check_type_shapes : {depth : Nat} → (shapes : List Shape) →
    origin.admits (depth + shapesNesting shapes) = true →
      ∀ item ∈ Shape.toJsons shapes, checkType origin depth item = .ok item
  | _, [], _, _, hitem => absurd hitem List.not_mem_nil
  | depth, shape :: rest, h, item, hitem => by
      rw [shapesNesting] at h
      rw [Shape.toJsons] at hitem
      rcases List.mem_cons.1 hitem with rfl | hrest
      · exact check_type_shape shape (Origin.admits_of_le h (by omega))
      · exact check_type_shapes rest (Origin.admits_of_le h (by omega)) item hrest

end

theorem shape_ne_null (shape : Shape) : shape.toJson ≠ .null := by
  cases shape <;> rw [Shape.toJson] <;> exact nofun

/-! ## The parts of a description -/

theorem check_text (t : Text) : (text 0).check origin (.text t) = .ok (.text t) := by
  rw [check]
  rfl

theorem check_text_filled {t : Text} (h : t.WellFormed) (hne : t ≠ []) :
    (text 1).check origin (.text t) = .ok (.text t) := by
  have hplain : t.any CodePoint.isSurrogate = false := by
    rw [List.any_eq_false]
    exact fun c hc => by simp [h c hc]
  have hlength : ¬ t.length < 1 := by
    have := List.length_pos_iff.2 hne
    omega
  rw [check]
  simp [checkText, hplain, hlength]

theorem check_word {choices : List String} {w : String} (h : w ∈ choices) :
    (word choices).check origin (.ofString w) = .ok (.ofString w) := by
  have hword : (choices.any fun v => Text.ofString v == Text.ofString w) = true :=
    List.any_eq_true.2 ⟨w, h, beq_self_eq_true _⟩
  rw [check]
  exact if_pos hword

theorem check_map {α : Type} {schema : Schema} {toJson : α → Json.Value} {items : List α}
    (h : ∀ a ∈ items, schema.check origin (toJson a) = .ok (toJson a)) :
    (list schema).check origin (.array (items.map toJson)) = .ok (.array (items.map toJson)) := by
  refine check_list fun value hvalue => ?_
  obtain ⟨a, ha, rfl⟩ := List.mem_map.1 hvalue
  exact h a ha

/-- Whether the types of some fields are nested no deeper than is admitted, each in its field. -/
def Origin.AdmitsFields (origin : Origin) (fields : List Field) : Prop :=
  ∀ field ∈ fields, origin.admits (1 + field.type.nesting) = true

theorem check_field {field : Field} (h : origin.admits (1 + field.type.nesting) = true) :
    Schema.field.check origin field.toJson = .ok field.toJson :=
  check_record
    (.present (check_text field.name) nofun
      (.present (check_type_shape field.type h) (shape_ne_null field.type) .nil))
    (by decide) rfl

theorem check_fields {fields : List Field} (h : origin.AdmitsFields fields) :
    (list Schema.field).check origin (Field.listToJson fields) = .ok (Field.listToJson fields) :=
  check_map fun field hfield => check_field (h field hfield)

theorem check_account_item (account : AccountRef) :
    accountItem.check origin account.toJson = .ok account.toJson :=
  check_record
    (.present (check_text account.name) nofun
      (.present (by rw [check]; rfl) nofun (.present (by rw [check]; rfl) nofun .nil)))
    (by decide) rfl

theorem check_instruction {instruction : Instruction}
    (h : origin.AdmitsFields instruction.arguments) :
    Schema.instruction.check origin instruction.toJson = .ok instruction.toJson :=
  check_record
    (.present (check_text instruction.name) nofun
      (.present (check_map fun account _ => check_account_item account) nofun
        (.present (check_fields h) nofun .nil)))
    (by decide) rfl

theorem check_account_body {fields : List Field} (h : origin.AdmitsFields fields) :
    accountBody.check origin (structToJson fields) = .ok (structToJson fields) :=
  check_record
    (.present (check_word (by decide)) nofun (.present (check_fields h) nofun .nil))
    (by decide) rfl

theorem check_account {layout : AccountLayout} (h : origin.AdmitsFields layout.fields) :
    account.check origin layout.toJson = .ok layout.toJson :=
  check_record
    (.present (check_text layout.name) nofun
      (.present (check_account_body h) nofun .nil))
    (by decide) rfl

/-- An optional member that is there is checked like any other. -/
theorem check_nullable {inner : Schema} {value : Json.Value} (hnull : value ≠ .null)
    (h : inner.check origin value = .ok value) :
    (nullable inner).check origin value = .ok value := by
  cases value <;> first | exact absurd rfl hnull | exact h

theorem check_variant {variant : Variant} (h : origin.AdmitsFields (variant.fields.getD [])) :
    Schema.variant.check origin variant.toJson = .ok variant.toJson := by
  obtain ⟨name, fields⟩ := variant
  cases fields with
  | none =>
      exact check_record (.present (check_text name) nofun (.absent rfl rfl .nil)) (by decide) rfl
  | some fields =>
      exact check_record
        (.present (check_text name) nofun
          (.present (check_nullable nofun (check_fields h)) nofun .nil))
        (by decide) rfl

theorem check_type_body {body : TypeBody} (h : origin.AdmitsFields body.allFields) :
    typeBody.check origin body.toJson = .ok body.toJson := by
  cases body with
  | struct fields =>
      exact check_record
        (.present (check_word (by decide)) nofun
          (.present (check_nullable nofun (check_fields h)) nofun (.absent rfl rfl .nil)))
        (by decide) rfl
  | enum variants =>
      have hvariants : (list Schema.variant).check origin _ = .ok (.array (variants.map _)) :=
        check_map fun variant hvariant => check_variant fun field hfield =>
          h field (List.mem_flatMap.2 ⟨variant, hvariant, hfield⟩)
      exact check_record
        (.present (check_word (by decide)) nofun
          (.absent rfl rfl (.present (check_nullable nofun hvariants) nofun .nil)))
        (by decide) rfl

theorem check_type_entry {entry : TypeEntry} (h : origin.AdmitsFields entry.body.allFields) :
    Schema.typeEntry.check origin entry.toJson = .ok entry.toJson := by
  have hbody : entry.body.toJson ≠ .null := by
    cases entry.body <;> exact nofun
  exact check_record
    (.present (check_text entry.name) nofun (.present (check_type_body h) hbody .nil))
    (by decide) rfl

theorem check_error_entry (entry : ErrorEntry) :
    errorEntry.check origin entry.toJson = .ok entry.toJson :=
  check_record
    (.present (by rw [check]; rfl) nofun
      (.present (check_text entry.name) nofun (.present (check_text entry.message) nofun .nil)))
    (by decide) rfl

/-- The value of a description with a version and a name is in normal form if its types are not
nested too deep. -/
theorem check_document {document : Document}
    (hversion : document.version.WellFormed ∧ document.version ≠ [])
    (hname : document.name.WellFormed ∧ document.name ≠ [])
    (hfields : origin.AdmitsFields document.fields) :
    Schema.document.check origin document.toJson = .ok document.toJson := by
  obtain ⟨harguments, hothers⟩ := List.forall_mem_append.1 hfields
  obtain ⟨haccounts, htypes⟩ := List.forall_mem_append.1 hothers
  have hmem : ∀ {α : Type} {f : α → List Field} {items : List α},
      origin.AdmitsFields (items.flatMap f) → ∀ a ∈ items, origin.AdmitsFields (f a) :=
    fun h a ha field hfield => h field (List.mem_flatMap.2 ⟨a, ha, hfield⟩)
  exact check_record
    (.present (check_text_filled hversion.1 hversion.2) nofun
      (.present (check_text_filled hname.1 hname.2) nofun
        (.present (check_map fun a ha => check_instruction (hmem harguments a ha)) nofun
          (.present (check_map fun a ha => check_account (hmem haccounts a ha)) nofun
            (.present (check_map fun a ha => check_type_entry (hmem htypes a ha)) nofun
              (.present (check_map fun a _ => check_error_entry a) nofun .nil))))))
    (by decide) rfl

end Schema

end ProgramInterface
