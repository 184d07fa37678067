import Mathlib.Data.Set.List
import ProgramInterface.Proofs.Schema.Accepted
import ProgramInterface.Proofs.Schema.Document

/-!
# Accepted values and descriptions

Every accepted value becomes the value of a description, with two exceptions: the schema accepts types
in the `defined` form, which no description has, and it accepts type bodies that have the member of
the other kind beside their own. `accepted_is_description_iff` says that there is no third one; the
description is found by going through the schema, and for types by recursion on the value.
-/

namespace ProgramInterface

namespace Json.Value

/-! ## Member names -/

mutual

/-- Whether some object in a value has a member with a given name. -/
def mentions (name : Text) : Value → Bool
  | array items => itemsMention name items
  | object members => membersMention name members
  | _ => false

/-- Whether some object in some values has a member with a given name. -/
def itemsMention (name : Text) : List Value → Bool
  | [] => false
  | item :: rest => item.mentions name || itemsMention name rest

/-- Whether some member has a given name or holds an object with such a member. -/
def membersMention (name : Text) : List (Text × Value) → Bool
  | [] => false
  | (key, value) :: rest => key == name || value.mentions name || membersMention name rest

end

variable {name : Text}

theorem array_mentions_iff {items : List Value} :
    (array items).mentions name = false ↔ ∀ item ∈ items, item.mentions name = false := by
  rw [mentions]
  induction items with
  | nil => simp [itemsMention]
  | cons item rest ih => rw [itemsMention, Bool.or_eq_false_iff, List.forall_mem_cons, ih]

theorem object_mentions_iff {members : List (Text × Value)} :
    (object members).mentions name = false ↔
      ∀ m ∈ members, m.1 ≠ name ∧ m.2.mentions name = false := by
  rw [mentions]
  induction members with
  | nil => simp [membersMention]
  | cons member rest ih =>
      rw [membersMention, Bool.or_eq_false_iff, Bool.or_eq_false_iff, beq_eq_false_iff_ne,
        List.forall_mem_cons, ih]

/-- A record mentions no name but its own and those that its members mention. -/
theorem record_mentions {form : String} {members : List (String × Value)}
    (hnames : (members.all fun m => m.1 != form) = true)
    (h : members.Forall fun m => m.2.mentions form = false) :
    (record members).mentions form = false := by
  refine object_mentions_iff.2 fun m hm => ?_
  obtain ⟨member, hmember, rfl⟩ := List.mem_map.1 hm
  have hname : member.1 ≠ form := by simpa using List.all_eq_true.1 hnames member hmember
  exact ⟨fun hequal => hname (Text.of_string_injective hequal),
    List.forall_iff_forall_mem.1 h member hmember⟩

theorem map_mentions {α : Type} {toJson : α → Value} (h : ∀ a, (toJson a).mentions name = false)
    (items : List α) : (array (items.map toJson)).mentions name = false := by
  refine array_mentions_iff.2 fun item hitem => ?_
  obtain ⟨a, _, rfl⟩ := List.mem_map.1 hitem
  exact h a

end Json.Value

namespace Schema

variable {origin : Origin} {depth : Nat}

/-! ## Parts of descriptions from accepted values -/

/-- The name of the form of types that no description has. -/
def definedForm : Text :=
  "defined"

/-- The member of an object without the form mentions it no more than the object. -/
theorem plain_member {members : List (Text × Json.Value)} {name : Text} {value : Json.Value}
    (h : (Json.Value.object members).mentions definedForm = false) (hm : (name, value) ∈ members) :
    value.mentions definedForm = false :=
  (Json.Value.object_mentions_iff.1 h _ hm).2

theorem to_jsons_eq (shapes : List Shape) : Shape.toJsons shapes = shapes.map Shape.toJson := by
  induction shapes with
  | nil => rfl
  | cons shape rest ih => rw [Shape.toJsons, ih, List.map_cons]

/-- Values that each belong to something belong to a list of such. -/
theorem exists_map {α : Type} {toJson : α → Json.Value} {values : List Json.Value}
    (h : ∀ value ∈ values, ∃ a, toJson a = value) : ∃ items : List α, items.map toJson = values :=
  (Set.range_list_map toJson).ge h

/-- An accepted type without the form is the value of a shape. -/
theorem shape_of_check {value normal : Json.Value} (h : checkType origin depth value = .ok normal)
    (hplain : normal.mentions definedForm = false) : ∃ shape : Shape, shape.toJson = normal := by
  revert hplain
  refine check_type_induction (motive := fun _ _ normal => normal.mentions definedForm = false →
    ∃ shape : Shape, shape.toJson = normal) (fun _ t _ => ⟨.named t, rfl⟩) ?vector ?tuple ?option
    ?defined h
  case vector =>
    intro depth members value normal _ _ ih hplain
    obtain ⟨element, rfl⟩ := ih (plain_member hplain (.head _))
    exact ⟨.vector element, rfl⟩
  case tuple =>
    intro depth members found items normals _ _ ih hplain
    have hinner := Json.Value.array_mentions_iff.1 (plain_member hplain (.head _))
    obtain ⟨elements, rfl⟩ : ∃ shapes : List Shape, shapes.map Shape.toJson = normals := by
      refine exists_map fun part hpart => ?_
      obtain ⟨item, _, hshape⟩ := ih part hpart
      exact hshape (hinner part hpart)
    exact ⟨.tuple elements, by rw [Shape.toJson, to_jsons_eq]⟩
  case option =>
    intro depth members value normal _ _ ih hplain
    obtain ⟨inner, rfl⟩ := ih (plain_member hplain (.head _))
    exact ⟨.option inner, rfl⟩
  case defined =>
    intro depth members value normal _ _ _ hplain
    have hname := (Json.Value.object_mentions_iff.1 hplain _ (.head _)).1
    exact absurd rfl hname

/-- The items of an accepted array as the values of a list, if each accepted item is the value of
something. -/
theorem map_of_check {α : Type} {schema : Schema} {toJson : α → Json.Value} {P : Json.Value → Prop}
    (hschema : ∀ {value normal}, schema.check origin value = .ok normal → P normal →
      ∃ a, toJson a = normal)
    {value normal : Json.Value} (h : (list schema).check origin value = .ok normal)
    (hitems : ∀ items, normal = .array items → ∀ item ∈ items, P item) :
    ∃ items : List α, .array (items.map toJson) = normal := by
  obtain ⟨_, normals, _, rfl, hnormals⟩ := check_list_eq_ok h
  obtain ⟨items, rfl⟩ : ∃ items : List α, items.map toJson = normals := by
    refine exists_map fun item hitem => ?_
    obtain ⟨v, _, hcheck⟩ := hnormals item hitem
    exact hschema hcheck (hitems normals rfl item hitem)
  exact ⟨items, rfl⟩

theorem plain_items {normal : Json.Value} (h : normal.mentions definedForm = false) :
    ∀ items, normal = .array items → ∀ item ∈ items, item.mentions definedForm = false := by
  rintro items rfl
  exact Json.Value.array_mentions_iff.1 h

theorem field_of_check {value normal : Json.Value} (h : Schema.field.check origin value = .ok normal)
    (hplain : normal.mentions definedForm = false) : ∃ field : Field, field.toJson = normal := by
  obtain ⟨_, members, _, rfl, hread, _⟩ := check_record_eq_ok h
  obtain ⟨_, _, _, hname, hrest, rfl⟩ := hread.required rfl rfl
  obtain ⟨_, _, _, htype, hothers, rfl⟩ := hrest.required rfl rfl
  cases hothers
  obtain ⟨name, rfl⟩ := check_text_eq_ok hname
  rw [check] at htype
  obtain ⟨type, rfl⟩ := shape_of_check htype (plain_member hplain (.tail _ (.head _)))
  exact ⟨⟨name, type⟩, rfl⟩

theorem fields_of_check {value normal : Json.Value}
    (h : (list Schema.field).check origin value = .ok normal)
    (hplain : normal.mentions definedForm = false) :
    ∃ fields, Field.listToJson fields = normal :=
  map_of_check field_of_check h (plain_items hplain)

theorem account_item_of_check {value normal : Json.Value}
    (h : accountItem.check origin value = .ok normal) :
    ∃ account : AccountRef, account.toJson = normal := by
  obtain ⟨_, members, _, rfl, hread, _⟩ := check_record_eq_ok h
  obtain ⟨_, _, _, hname, hrest, rfl⟩ := hread.required rfl rfl
  obtain ⟨_, _, _, hmutable, hothers, rfl⟩ := hrest.required rfl rfl
  obtain ⟨_, _, _, hsigner, hlast, rfl⟩ := hothers.required rfl rfl
  cases hlast
  obtain ⟨name, rfl⟩ := check_text_eq_ok hname
  obtain ⟨isMutable, rfl⟩ := check_truth_eq_ok hmutable
  obtain ⟨isSigner, rfl⟩ := check_truth_eq_ok hsigner
  exact ⟨⟨name, isMutable, isSigner⟩, rfl⟩

theorem instruction_of_check {value normal : Json.Value}
    (h : Schema.instruction.check origin value = .ok normal)
    (hplain : normal.mentions definedForm = false) :
    ∃ instruction : Instruction, instruction.toJson = normal := by
  obtain ⟨_, members, _, rfl, hread, _⟩ := check_record_eq_ok h
  obtain ⟨_, _, _, hname, hrest, rfl⟩ := hread.required rfl rfl
  obtain ⟨_, _, _, haccounts, hothers, rfl⟩ := hrest.required rfl rfl
  obtain ⟨_, _, _, harguments, hlast, rfl⟩ := hothers.required rfl rfl
  cases hlast
  obtain ⟨name, rfl⟩ := check_text_eq_ok hname
  obtain ⟨accounts, rfl⟩ := map_of_check (P := fun _ => True)
    (fun hcheck _ => account_item_of_check hcheck) haccounts (fun _ _ _ _ => trivial)
  obtain ⟨arguments, rfl⟩ := fields_of_check harguments
    (plain_member hplain (.tail _ (.tail _ (.head _))))
  exact ⟨⟨name, accounts, arguments⟩, rfl⟩

theorem struct_of_check {value normal : Json.Value} (h : accountBody.check origin value = .ok normal)
    (hplain : normal.mentions definedForm = false) : ∃ fields, structToJson fields = normal := by
  obtain ⟨_, members, _, rfl, hread, _⟩ := check_record_eq_ok h
  obtain ⟨_, _, _, hkind, hrest, rfl⟩ := hread.required rfl rfl
  obtain ⟨_, _, _, hfields, hothers, rfl⟩ := hrest.required rfl rfl
  cases hothers
  obtain ⟨kind, hword, rfl⟩ := check_word_eq_ok hkind
  obtain ⟨fields, rfl⟩ := fields_of_check hfields (plain_member hplain (.tail _ (.head _)))
  cases List.mem_singleton.1 hword
  exact ⟨fields, rfl⟩

theorem account_of_check {value normal : Json.Value} (h : account.check origin value = .ok normal)
    (hplain : normal.mentions definedForm = false) :
    ∃ layout : AccountLayout, layout.toJson = normal := by
  obtain ⟨_, members, _, rfl, hread, _⟩ := check_record_eq_ok h
  obtain ⟨_, _, _, hname, hrest, rfl⟩ := hread.required rfl rfl
  obtain ⟨_, _, _, hbody, hothers, rfl⟩ := hrest.required rfl rfl
  cases hothers
  obtain ⟨name, rfl⟩ := check_text_eq_ok hname
  obtain ⟨fields, rfl⟩ := struct_of_check hbody (plain_member hplain (.tail _ (.head _)))
  exact ⟨⟨name, fields⟩, rfl⟩

theorem variant_of_check {value normal : Json.Value} (h : variant.check origin value = .ok normal)
    (hplain : normal.mentions definedForm = false) :
    ∃ variant : Variant, variant.toJson = normal := by
  obtain ⟨_, members, _, rfl, hread, _⟩ := check_record_eq_ok h
  obtain ⟨_, _, _, hname, hrest, rfl⟩ := hread.required rfl rfl
  obtain ⟨name, rfl⟩ := check_text_eq_ok hname
  obtain hnone | ⟨_, _, _, hfields, hnone, rfl⟩ := hrest.optional
  · cases hnone
    exact ⟨⟨name, none⟩, rfl⟩
  · cases hnone
    obtain ⟨fields, rfl⟩ := fields_of_check hfields (plain_member hplain (.tail _ (.head _)))
    exact ⟨⟨name, some fields⟩, rfl⟩

theorem error_entry_of_check {value normal : Json.Value}
    (h : errorEntry.check origin value = .ok normal) : ∃ entry : ErrorEntry, entry.toJson = normal := by
  obtain ⟨_, members, _, rfl, hread, _⟩ := check_record_eq_ok h
  obtain ⟨_, _, _, hcode, hrest, rfl⟩ := hread.required rfl rfl
  obtain ⟨_, _, _, hname, hothers, rfl⟩ := hrest.required rfl rfl
  obtain ⟨_, _, _, hmessage, hlast, rfl⟩ := hothers.required rfl rfl
  cases hlast
  obtain ⟨code, _, rfl⟩ := check_integer_eq_ok hcode
  obtain ⟨name, rfl⟩ := check_text_eq_ok hname
  obtain ⟨message, rfl⟩ := check_text_eq_ok hmessage
  exact ⟨⟨code, name, message⟩, rfl⟩

/-! ## Type bodies -/

/-- The words for what a type is made of, each with the member that then must be there. -/
def ownMembers : List (String × String) :=
  [("struct", "fields"), ("enum", "variants")]

/-- Whether a type body has the member that its kind asks for. -/
def HasOwnMember (body : Json.Value) : Prop :=
  ∃ own ∈ ownMembers, body.member? "kind" = some (.ofString own.1) ∧ (body.member? own.2).isSome

/-- Whether a type body has a member that another kind asks for. -/
def HasOtherMember (body : Json.Value) : Prop :=
  ∃ other ∈ ownMembers, body.member? "kind" ≠ some (.ofString other.1) ∧
    (body.member? other.2).isSome

/-- What an accepted type body looks like. Its own member must be there, but the other one may be
there as well. -/
inductive TypeBodyRead (origin : Origin) : Json.Value → Prop where
  | struct {value fields : Json.Value}
      (hfields : (list Schema.field).check origin value = .ok fields) :
      TypeBodyRead origin (.record [("kind", .ofString "struct"), ("fields", fields)])
  | enum {value variants : Json.Value}
      (hvariants : (list variant).check origin value = .ok variants) :
      TypeBodyRead origin (.record [("kind", .ofString "enum"), ("variants", variants)])
  | mixed {kind : String} (hkind : kind = "struct" ∨ kind = "enum") (fields variants : Json.Value) :
      TypeBodyRead origin
        (.record [("kind", .ofString kind), ("fields", fields), ("variants", variants)])

theorem check_type_body_eq_ok {value normal : Json.Value}
    (h : typeBody.check origin value = .ok normal) : TypeBodyRead origin normal := by
  obtain ⟨_, members, _, rfl, hread, hrules⟩ := check_record_eq_ok h
  obtain ⟨_, _, _, hkind, hrest, rfl⟩ := hread.required rfl rfl
  obtain ⟨kind, hword, rfl⟩ := check_word_eq_ok hkind
  obtain hothers | ⟨_, _, _, hfields, hothers, rfl⟩ := hrest.optional
  · obtain hlast | ⟨_, _, _, hvariants, hlast, rfl⟩ := hothers.optional
    · cases hlast
      obtain rfl | rfl : kind = "struct" ∨ kind = "enum" := by simpa using hword
      · cases hrules
      · cases hrules
    · cases hlast
      obtain rfl | rfl : kind = "struct" ∨ kind = "enum" := by simpa using hword
      · cases hrules
      · exact .enum hvariants
  · obtain hlast | ⟨_, _, _, hvariants, hlast, rfl⟩ := hothers.optional
    · cases hlast
      obtain rfl | rfl : kind = "struct" ∨ kind = "enum" := by simpa using hword
      · exact .struct hfields
      · cases hrules
    · cases hlast
      exact .mixed (by simpa using hword) _ _

theorem TypeBodyRead.has_own {body : Json.Value} (h : TypeBodyRead origin body) :
    HasOwnMember body := by
  cases h with
  | struct => exact ⟨("struct", "fields"), .head _, rfl, rfl⟩
  | enum => exact ⟨("enum", "variants"), .tail _ (.head _), rfl, rfl⟩
  | mixed hkind fields variants =>
      obtain rfl | rfl := hkind
      · exact ⟨("struct", "fields"), .head _, rfl, rfl⟩
      · exact ⟨("enum", "variants"), .tail _ (.head _), rfl, rfl⟩

/-- Without a member of another kind an accepted type body belongs to a type. -/
theorem TypeBodyRead.exists_body {body : Json.Value} (h : TypeBodyRead origin body)
    (hplain : body.mentions definedForm = false) (hown : ¬ HasOtherMember body) :
    ∃ typeBody : TypeBody, typeBody.toJson = body := by
  cases h with
  | struct hfields =>
      obtain ⟨fields, rfl⟩ := fields_of_check hfields (plain_member hplain (.tail _ (.head _)))
      exact ⟨.struct fields, rfl⟩
  | enum hvariants =>
      have hinner := plain_items (plain_member hplain (.tail _ (.head _)))
      obtain ⟨variants, rfl⟩ := map_of_check variant_of_check hvariants hinner
      exact ⟨.enum variants, rfl⟩
  | mixed hkind fields variants =>
      exfalso
      obtain rfl | rfl := hkind
      · exact hown ⟨("enum", "variants"), .tail _ (.head _), nofun, rfl⟩
      · exact hown ⟨("struct", "fields"), .head _, nofun, rfl⟩

/-! ## Descriptions -/

/-- The values that say what the types of a description are made of. -/
def typeBodies (dump : Json.Value) : List Json.Value :=
  (((dump.member? "types").bind Json.Value.items?).getD []).filterMap (Json.Value.member? "type")

theorem check_type_entry_eq_ok {value normal : Json.Value}
    (h : typeEntry.check origin value = .ok normal) :
    ∃ name body, normal = .record [("name", .text name), ("type", body)] ∧
      TypeBodyRead origin body := by
  obtain ⟨_, members, _, rfl, hread, _⟩ := check_record_eq_ok h
  obtain ⟨_, _, _, hname, hrest, rfl⟩ := hread.required rfl rfl
  obtain ⟨_, body, _, hbody, hothers, rfl⟩ := hrest.required rfl rfl
  cases hothers
  obtain ⟨name, rfl⟩ := check_text_eq_ok hname
  exact ⟨name, body, rfl, check_type_body_eq_ok hbody⟩

theorem type_entry_of_check {value normal : Json.Value} (h : typeEntry.check origin value = .ok normal)
    (hfit : normal.mentions definedForm = false ∧
      ∀ body, normal.member? "type" = some body → ¬ HasOtherMember body) :
    ∃ entry : TypeEntry, entry.toJson = normal := by
  obtain ⟨name, body, rfl, hread⟩ := check_type_entry_eq_ok h
  have hinner := plain_member hfit.1 (.tail _ (.head _))
  obtain ⟨typeBody, rfl⟩ := hread.exists_body hinner (hfit.2 body rfl)
  exact ⟨⟨name, typeBody⟩, rfl⟩

/-- What an accepted description looks like: its types are in normal form, and the rest of it belongs
to a description if it does not use the form. -/
theorem check_document_eq_ok {value normal : Json.Value}
    (h : document.check origin value = .ok normal) :
    ∃ types : List Json.Value,
      typeBodies normal = types.filterMap (Json.Value.member? "type") ∧
      (∀ entry ∈ types, ∃ v, typeEntry.check origin v = .ok entry) ∧
      (normal.mentions definedForm = false →
        (∀ body ∈ typeBodies normal, ¬ HasOtherMember body) → ∃ d : Document, d.toJson = normal) := by
  -- All six members are required, so they are taken off one after another.
  obtain ⟨_, members, _, rfl, hread, _⟩ := check_record_eq_ok h
  obtain ⟨_, _, _, hversion, hread₁, rfl⟩ := hread.required rfl rfl
  obtain ⟨_, _, _, hname, hread₂, rfl⟩ := hread₁.required rfl rfl
  obtain ⟨_, _, _, hinstructions, hread₃, rfl⟩ := hread₂.required rfl rfl
  obtain ⟨_, _, _, haccounts, hread₄, rfl⟩ := hread₃.required rfl rfl
  obtain ⟨_, _, _, htypes, hread₅, rfl⟩ := hread₄.required rfl rfl
  obtain ⟨_, _, _, herrors, hread₆, rfl⟩ := hread₅.required rfl rfl
  cases hread₆
  obtain ⟨version, rfl⟩ := check_text_eq_ok hversion
  obtain ⟨name, rfl⟩ := check_text_eq_ok hname
  obtain ⟨_, types, _, rfl, hentries⟩ := check_list_eq_ok htypes
  refine ⟨types, rfl, fun entry hentry => ?_, fun hplain hown => ?_⟩
  · obtain ⟨v, _, hcheck⟩ := hentries entry hentry
    exact ⟨v, hcheck⟩
  have hplainTypes := plain_items (plain_member hplain
    (.tail _ (.tail _ (.tail _ (.tail _ (.head _)))))) types rfl
  obtain ⟨instructions, rfl⟩ := map_of_check instruction_of_check hinstructions
    (plain_items (plain_member hplain (.tail _ (.tail _ (.head _)))))
  obtain ⟨accounts, rfl⟩ := map_of_check account_of_check haccounts
    (plain_items (plain_member hplain (.tail _ (.tail _ (.tail _ (.head _))))))
  obtain ⟨entries, hmap⟩ := map_of_check type_entry_of_check htypes <| by
    rintro items ⟨⟩ entry hentry
    exact ⟨hplainTypes entry hentry, fun body hbody =>
      hown body (List.mem_filterMap.2 ⟨entry, hentry, hbody⟩)⟩
  obtain ⟨errors, rfl⟩ := map_of_check (P := fun _ => True)
    (fun hcheck _ => error_entry_of_check hcheck) herrors (fun _ _ _ _ => trivial)
  cases hmap
  exact ⟨⟨version, name, instructions, accounts, entries, errors⟩, rfl⟩

/-! ### What descriptions do not hold -/

mutual

theorem shape_plain : (shape : Shape) → shape.toJson.mentions definedForm = false
  | .primitive _ => rfl
  | .named _ => rfl
  | .vector element => Json.Value.record_mentions rfl (shape_plain element)
  | .tuple elements =>
      Json.Value.record_mentions rfl (Json.Value.array_mentions_iff.2 (shapes_plain elements))
  | .option inner => Json.Value.record_mentions rfl (shape_plain inner)

theorem shapes_plain : (shapes : List Shape) →
    ∀ value ∈ Shape.toJsons shapes, value.mentions definedForm = false
  | [], _, h => nomatch h
  | shape :: rest, value, h => by
      rw [Shape.toJsons] at h
      rcases List.mem_cons.1 h with rfl | hrest
      · exact shape_plain shape
      · exact shapes_plain rest value hrest

end

theorem field_plain (field : Field) : field.toJson.mentions definedForm = false :=
  Json.Value.record_mentions rfl ⟨rfl, shape_plain field.type⟩

theorem fields_plain (fields : List Field) :
    (Field.listToJson fields).mentions definedForm = false :=
  Json.Value.map_mentions field_plain fields

theorem account_ref_plain (account : AccountRef) : account.toJson.mentions definedForm = false :=
  Json.Value.record_mentions rfl ⟨rfl, rfl, rfl⟩

theorem instruction_plain (instruction : Instruction) :
    instruction.toJson.mentions definedForm = false :=
  Json.Value.record_mentions rfl
    ⟨rfl, Json.Value.map_mentions account_ref_plain instruction.accounts,
      fields_plain instruction.arguments⟩

theorem struct_plain (fields : List Field) :
    (structToJson fields).mentions definedForm = false :=
  Json.Value.record_mentions rfl ⟨rfl, fields_plain fields⟩

theorem account_plain (layout : AccountLayout) : layout.toJson.mentions definedForm = false :=
  Json.Value.record_mentions rfl ⟨rfl, struct_plain layout.fields⟩

theorem variant_plain (variant : Variant) : variant.toJson.mentions definedForm = false := by
  obtain ⟨name, fields⟩ := variant
  cases fields with
  | none => exact Json.Value.record_mentions rfl rfl
  | some fields => exact Json.Value.record_mentions rfl ⟨rfl, fields_plain fields⟩

theorem type_body_plain (body : TypeBody) : body.toJson.mentions definedForm = false := by
  cases body with
  | struct fields => exact struct_plain fields
  | enum variants =>
      exact Json.Value.record_mentions rfl ⟨rfl, Json.Value.map_mentions variant_plain variants⟩

theorem type_entry_plain (entry : TypeEntry) : entry.toJson.mentions definedForm = false :=
  Json.Value.record_mentions rfl ⟨rfl, type_body_plain entry.body⟩

theorem error_entry_plain (entry : ErrorEntry) : entry.toJson.mentions definedForm = false :=
  Json.Value.record_mentions rfl ⟨rfl, rfl, rfl⟩

/-- No description uses the form. -/
theorem document_plain (d : Document) : d.toJson.mentions definedForm = false :=
  Json.Value.record_mentions rfl
    ⟨rfl, rfl, Json.Value.map_mentions instruction_plain d.instructions,
      Json.Value.map_mentions account_plain d.accounts,
      Json.Value.map_mentions type_entry_plain d.types,
      Json.Value.map_mentions error_entry_plain d.errors⟩

/-- No type has a member of another kind. -/
theorem type_body_own (body : TypeBody) : ¬ HasOtherMember body.toJson := by
  rintro ⟨other, hother, hkind, hmember⟩
  cases body with
  | struct fields =>
      obtain rfl | rfl : other = ("struct", "fields") ∨ other = ("enum", "variants") := by
        simpa [ownMembers] using hother
      · exact hkind rfl
      · cases hmember
  | enum variants =>
      obtain rfl | rfl : other = ("struct", "fields") ∨ other = ("enum", "variants") := by
        simpa [ownMembers] using hother
      · cases hmember
      · exact hkind rfl

theorem mem_type_bodies {d : Document} {body : Json.Value} (h : body ∈ typeBodies d.toJson) :
    ∃ typeBody : TypeBody, typeBody.toJson = body := by
  have hbodies : typeBodies d.toJson =
      (d.types.map TypeEntry.toJson).filterMap (Json.Value.member? "type") := rfl
  rw [hbodies, List.filterMap_map] at h
  obtain ⟨entry, _, hentry⟩ := List.mem_filterMap.1 h
  cases hentry
  exact ⟨entry.body, rfl⟩

/-- The value of an accepted description is that of a description if and only if none of its types
uses the `defined` form and none of its type bodies has a member of another kind. Each type body has
the member of its own kind in any case. -/
theorem accepted_is_description_iff {value dump : Json.Value} (h : checkObject value = .ok dump) :
    (∀ body ∈ typeBodies dump, HasOwnMember body) ∧
      ((∃ d : Document, d.toJson = dump) ↔
        dump.mentions definedForm = false ∧ ∀ body ∈ typeBodies dump, ¬ HasOtherMember body) := by
  obtain ⟨types, htypes, hentries, hdocument⟩ := check_document_eq_ok h
  refine ⟨fun body hbody => ?_, ?_, fun hfit => hdocument hfit.1 hfit.2⟩
  · rw [htypes] at hbody
    obtain ⟨entry, hentry, hmember⟩ := List.mem_filterMap.1 hbody
    obtain ⟨v, hcheck⟩ := hentries entry hentry
    obtain ⟨name, inner, rfl, hread⟩ := check_type_entry_eq_ok hcheck
    cases hmember
    exact hread.has_own
  · rintro ⟨d, rfl⟩
    refine ⟨document_plain d, fun body hbody => ?_⟩
    obtain ⟨typeBody, rfl⟩ := mem_type_bodies hbody
    exact type_body_own typeBody

/-- A description with members in another order and under other names, with numbers and truth values
as texts, and with members that are null. -/
def lenientDescription : Json.Value :=
  .record [("version", .ofString "0.1.0"), ("name", .ofString "vault_program"),
    ("instructions", .array [.record [("name", .ofString "pay"),
      ("accounts", .array [.record
        [("name", .ofString "payer"), ("is_mut", .ofString "Yes"), ("isSigner", .int 1)]]),
      ("args", .array [.record [("name", .ofString "rows"),
        ("type", .record [("vec", .record [("items", .array
          [.ofString "u8", .record [("option", .ofString "Key")]])])])]])]]),
    ("accounts", .array []),
    ("types", .array [.record [("name", .ofString "Step"),
      ("type", .record [("kind", .ofString "enum"), ("fields", .null),
        ("variants", .array [.record [("name", .ofString "Go"), ("fields", .null)]])])]]),
    ("errors", .array [.record
      [("msg", .ofString "late"), ("code", .ofString " 6_00 "), ("name", .ofString "Late")]])]

/-- The description that it stands for. -/
def plainDescription : Document where
  version := "0.1.0"
  name := "vault_program"
  instructions := [⟨"pay", [⟨"payer", true, true⟩],
    [⟨"rows", .vector (.tuple [.named "u8", .option (.named "Key")])⟩]⟩]
  accounts := []
  types := [⟨"Step", .enum [⟨"Go", none⟩]⟩]
  errors := [⟨600, "Late", "late"⟩]

/-- The normal form of the lenient description is the value of a description, so no type in it uses
the `defined` form, and its one type body has its own member only. -/
theorem accepted_lenient :
    checkObject lenientDescription = .ok plainDescription.toJson ∧
      plainDescription.toJson.mentions definedForm = false ∧
      ∀ body ∈ typeBodies plainDescription.toJson, HasOwnMember body ∧ ¬ HasOtherMember body := by
  have hcheck : checkObject lenientDescription = .ok plainDescription.toJson := by
    with_unfolding_all rfl
  have haccepted := accepted_is_description_iff hcheck
  have hfit := haccepted.2.1 ⟨plainDescription, rfl⟩
  exact ⟨hcheck, hfit.1, fun body hbody => ⟨haccepted.1 body hbody, hfit.2 body hbody⟩⟩

/-- A description of one struct that has variants besides its fields. -/
def mixedDescription : Json.Value :=
  .record [("version", .ofString "0.1.0"), ("name", .ofString "vault_program"),
    ("instructions", .array []), ("accounts", .array []),
    ("types", .array [.record [("name", .ofString "Step"),
      ("type", .record [("kind", .ofString "struct"), ("fields", .array []),
        ("variants", .array [])])]]),
    ("errors", .array [])]

/-- The schema accepts a struct with variants as it is, although no description has the value and no
type in it uses the `defined` form. -/
theorem struct_with_variants_accepted :
    checkObject mixedDescription = .ok mixedDescription ∧
      mixedDescription.mentions definedForm = false ∧
      ∀ d : Document, d.toJson ≠ mixedDescription := by
  refine ⟨by with_unfolding_all rfl, rfl, fun d hd => ?_⟩
  have hmixed : ∃ body ∈ typeBodies d.toJson, HasOtherMember body := by
    rw [hd]
    exact ⟨_, .head _, ("enum", "variants"), .tail _ (.head _), nofun, rfl⟩
  obtain ⟨body, hbody, hother⟩ := hmixed
  obtain ⟨typeBody, rfl⟩ := mem_type_bodies hbody
  exact type_body_own typeBody hother

end Schema

end ProgramInterface
