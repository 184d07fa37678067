import ProgramInterface.Proofs.Schema.Accepted
import ProgramInterface.Proofs.Schema.Document

/-!
# Normal forms are stable

A normal form is its own normal form (`check_normal`), for every schema whose records write each name
once and know a member that may be missing by one name only (`isStable`). Nothing in a normal form
comes from nowhere: its texts stand in the value or are words of the schema, its integers are what
parts of the value stand for, and the names of its members are those of the schema (`check_derived`).
-/

namespace ProgramInterface

namespace Schema

variable {names : List Text} {origin : Origin} {depth : Nat}

/-! ## Stable schemas -/

/-- Whether a member that a normal form leaves out may be missing when it is looked for again. -/
def keepsAbsence (naming : Naming) (schema : Schema) : Bool :=
  if naming.isOptional || schema.isNullable then naming.isOptional && naming.other.isNone else true

/-- The names of the forms of types as members. -/
def formNames : List Text :=
  ["vec", "tuple", "option", "defined"]

mutual

/-- Whether the normal forms of a schema fit it again and name their members by some names only. -/
def isStable (names : List Text) : Schema → Bool
  | type => formNames.all names.contains
  | list item => item.isStable names
  | nullable inner => inner.isStable names
  | record _ namings _ => decide (wireNames namings).Nodup && areStable names namings
  | _ => true

/-- Whether the members of a record have stable schemas and keep their places. -/
def areStable (names : List Text) : List (Naming × Schema) → Bool
  | [] => true
  | (naming, schema) :: rest =>
    names.contains naming.wire && keepsAbsence naming schema && schema.isStable names &&
      areStable names rest

end

theorem are_stable_cons {naming : Naming} {schema : Schema} {rest : List (Naming × Schema)}
    (h : areStable names ((naming, schema) :: rest) = true) :
    naming.wire ∈ names ∧ keepsAbsence naming schema = true ∧ schema.isStable names = true ∧
      areStable names rest = true := by
  simpa [areStable, and_assoc] using h

theorem wire_names_subset {namings : List (Naming × Schema)} (h : areStable names namings = true) :
    wireNames namings ⊆ names := by
  induction namings with
  | nil => exact List.nil_subset _
  | cons head rest ih =>
      obtain ⟨naming, schema⟩ := head
      obtain ⟨hwire, _, _, hrest⟩ := are_stable_cons h
      exact List.cons_subset.2 ⟨hwire, ih hrest⟩

/-- A member that was left out is optional and has one name. -/
theorem absent_of_keeps {naming : Naming} {schema : Schema}
    (h : keepsAbsence naming schema = true)
    (habsent : naming.isOptional = true ∨ ∃ value, schema.check origin value = .ok .null) :
    naming.isOptional = true ∧ naming.other = none := by
  have hcondition : (naming.isOptional || schema.isNullable) = true := by
    rcases habsent with hoptional | ⟨value, hcheck⟩
    · rw [hoptional, Bool.true_or]
    · cases hnullable : schema.isNullable with
      | false => exact absurd rfl (check_ne_null hnullable hcheck)
      | true => rw [Bool.or_true]
  rw [keepsAbsence, if_pos hcondition, Bool.and_eq_true, Option.isNone_iff_eq_none] at h
  exact h

/-! ## Normal forms of normal forms -/

theorem check_type_normal {value normal : Json.Value}
    (h : checkType origin depth value = .ok normal) :
    checkType origin depth normal = .ok normal := by
  refine check_type_induction
    (motive := fun depth _ normal => checkType origin depth normal = .ok normal)
    (fun depth t => by rw [checkType]) ?vector ?tuple ?option ?defined h
  case vector =>
    intro depth members value normal hadmits _ ih
    exact check_type_vec hadmits ih
  case tuple =>
    intro depth members found items normals hadmits _ ih
    refine check_type_tuple hadmits fun part hpart => ?_
    obtain ⟨item, _, hcheck⟩ := ih part hpart
    exact hcheck
  case option =>
    intro depth members value normal hadmits _ ih
    exact check_type_option hadmits ih
  case defined =>
    intro depth members value normal hadmits _ hcheck
    cases check_text_same hcheck
    exact check_type_defined hadmits hcheck

mutual

/-- The normal form of a value is its own normal form. -/
theorem check_normal : (schema : Schema) → schema.isStable names = true →
    {value normal : Json.Value} → schema.check origin value = .ok normal →
    schema.check origin normal = .ok normal
  | text least, _, value, normal, h => by
      rw [check] at h ⊢
      cases check_text_same h
      exact h
  | integer, _, _, _, h => by
      obtain ⟨n, _, rfl⟩ := check_integer_eq_ok h
      rw [check]
      rfl
  | truth, _, _, _, h => by
      obtain ⟨b, rfl⟩ := check_truth_eq_ok h
      rw [check]
      rfl
  | word choices, _, _, _, h => by
      obtain ⟨w, hw, rfl⟩ := check_word_eq_ok h
      exact check_word hw
  | type, _, _, _, h => by
      rw [check] at h ⊢
      exact check_type_normal h
  | list item, hstable, _, _, h => by
      obtain ⟨_, normals, _, rfl, hitems⟩ := check_list_eq_ok h
      refine check_list fun part hpart => ?_
      obtain ⟨v, _, hcheck⟩ := hitems part hpart
      exact check_normal item hstable hcheck
  | nullable inner, hstable, _, normal, h => by
      rcases check_nullable_eq_ok h with rfl | hinner
      · rw [check]
      · by_cases hnull : normal = .null
        · rw [hnull, check]
        · exact check_nullable hnull (check_normal inner hstable hinner)
  | record name namings needs, hstable, _, _, h => by
      obtain ⟨_, members, _, rfl, hread, hrules⟩ := check_record_eq_ok h
      rw [isStable, Bool.and_eq_true, decide_eq_true_eq] at hstable
      exact check_record (members_fit hstable.2 hread) hstable.1 hrules

/-- The members of an accepted record fit the schema. -/
theorem members_fit : {namings : List (Naming × Schema)} → areStable names namings = true →
    {whole members : List (Text × Json.Value)} →
    MembersRead origin whole namings members → MembersFit origin namings members
  | [], _, _, _, h => by
      cases h
      exact .nil
  | (naming, schema) :: rest, hstable, _, _, h => by
      obtain ⟨_, hkeeps, hschema, hrest⟩ := are_stable_cons hstable
      cases h with
      | present _ hcheck hnull hread =>
          exact .present (check_normal schema hschema hcheck) hnull (members_fit hrest hread)
      | absent habsent hread =>
          obtain ⟨hoptional, hother⟩ := absent_of_keeps hkeeps habsent
          exact .absent hoptional hother (members_fit hrest hread)

end

/-! ## Where normal forms come from -/

/-- Whether checking may make a part of a normal form from the parts of a value: a text that stands
there or a word, an integer that one of them stands for, or an object whose members have different
names among some, but no floating-point number. -/
def Derived (names : List Text) (whole : Json.Value) : Json.Value → Prop
  | .text t => .text t ∈ whole.parts ∨ ∃ w : String, t = Text.ofString w
  | .int n => ∃ source ∈ whole.parts, integerOf source = .ok n
  | .float _ => False
  | .object members => (members.map (·.1)).Nodup ∧ ∀ m ∈ members, m.1 ∈ names
  | _ => True

variable {whole value normal : Json.Value}

theorem derived_of_part (hvalue : value ∈ whole.parts) (h : normal.All (Derived names value)) :
    normal.All (Derived names whole) := by
  intro part hpart
  have hsubset := Json.Value.parts_subset hvalue
  have hderived := h part hpart
  cases part with
  | text t => exact hderived.imp_left fun ht => hsubset ht
  | int n =>
      obtain ⟨source, hsource, hn⟩ := hderived
      exact ⟨source, hsubset hsource, hn⟩
  | _ => exact hderived

theorem derived_scalar (hparts : normal.parts = [normal]) (h : Derived names whole normal) :
    normal.All (Derived names whole) := by
  rw [Json.Value.All, hparts, List.forall_mem_singleton]
  exact h

/-- A form of types is derived if what it holds is. -/
theorem derived_form {form : String} (hform : Text.ofString form ∈ names)
    (h : normal.All (Derived names whole)) :
    (Json.Value.record [(form, normal)]).All (Derived names whole) :=
  Json.Value.all_object.2
    ⟨⟨List.nodup_singleton _, by simpa using hform⟩, by simpa using h⟩

theorem check_type_derived (hforms : ∀ form ∈ formNames, form ∈ names)
    (h : checkType origin depth value = .ok normal) : normal.All (Derived names value) := by
  refine check_type_induction (motive := fun _ value normal => normal.All (Derived names value))
    ?text ?vector ?tuple ?option ?defined h
  case text =>
    intro depth t
    exact derived_scalar rfl (.inl (Json.Value.mem_parts_self _))
  case vector =>
    intro depth members value normal _ hvalue ih
    exact derived_form (hforms _ (by decide))
      (derived_of_part (Json.Value.mem_parts_of_lookup hvalue) ih)
  case tuple =>
    intro depth members found items normals _ hitems ih
    refine derived_form (hforms _ (by decide)) (Json.Value.all_array.2 ⟨trivial, ?_⟩)
    intro part hpart
    obtain ⟨item, hitem, hderived⟩ := ih part hpart
    have hwhole := Json.Value.parts_subset (Json.Value.mem_parts_of_lookup hitems)
    exact derived_of_part
      (hwhole (Json.Value.mem_parts_of_item hitem (Json.Value.mem_parts_self item))) hderived
  case option =>
    intro depth members value normal _ hvalue ih
    exact derived_form (hforms _ (by decide))
      (derived_of_part (Json.Value.mem_parts_of_lookup hvalue) ih)
  case defined =>
    intro depth members value normal _ hvalue hcheck
    have hfilled : (text 1).check origin value = .ok normal := by rwa [check]
    obtain ⟨t, rfl⟩ := check_text_eq_ok hfilled
    have ht := Json.Value.mem_parts_of_lookup hvalue
    rw [← check_text_same hcheck] at ht
    exact derived_form (hforms _ (by decide)) (derived_scalar rfl (.inl ht))

mutual

/-- Every part of a normal form is derived from the value. -/
theorem check_derived : (schema : Schema) → schema.isStable names = true →
    {value normal : Json.Value} → schema.check origin value = .ok normal →
    normal.All (Derived names value)
  | text least, _, value, normal, h => by
      obtain ⟨t, rfl⟩ := check_text_eq_ok h
      rw [check] at h
      have ht := Json.Value.mem_parts_self value
      rw [← check_text_same h] at ht ⊢
      exact derived_scalar rfl (.inl ht)
  | integer, _, value, _, h => by
      obtain ⟨n, hn, rfl⟩ := check_integer_eq_ok h
      exact derived_scalar rfl ⟨value, Json.Value.mem_parts_self value, hn⟩
  | truth, _, _, _, h => by
      obtain ⟨b, rfl⟩ := check_truth_eq_ok h
      exact derived_scalar rfl trivial
  | word choices, _, _, _, h => by
      obtain ⟨w, _, rfl⟩ := check_word_eq_ok h
      exact derived_scalar rfl (.inr ⟨w, rfl⟩)
  | type, hstable, _, _, h => by
      rw [check] at h
      refine check_type_derived (fun form hform => ?_) h
      exact List.contains_iff_mem.1 (List.all_eq_true.1 hstable form hform)
  | list item, hstable, _, _, h => by
      obtain ⟨items, normals, rfl, rfl, hitems⟩ := check_list_eq_ok h
      refine Json.Value.all_array.2 ⟨trivial, fun part hpart => ?_⟩
      obtain ⟨v, hv, hcheck⟩ := hitems part hpart
      exact derived_of_part (Json.Value.mem_parts_of_item hv (Json.Value.mem_parts_self v))
        (check_derived item hstable hcheck)
  | nullable inner, hstable, _, normal, h => by
      rcases check_nullable_eq_ok h with rfl | hinner
      · exact derived_scalar rfl trivial
      · exact check_derived inner hstable hinner
  | record name namings needs, hstable, _, _, h => by
      obtain ⟨whole, members, rfl, rfl, hread, _⟩ := check_record_eq_ok h
      rw [isStable, Bool.and_eq_true, decide_eq_true_eq] at hstable
      have hsublist := (members_fit hstable.2 hread).names_sublist
      refine Json.Value.all_object.2
        ⟨⟨hstable.1.sublist hsublist, fun m hm => ?_⟩, members_derived hstable.2 hread⟩
      exact wire_names_subset hstable.2 (hsublist.subset (List.mem_map_of_mem hm))

/-- What the members of an accepted record hold is derived. -/
theorem members_derived : {namings : List (Naming × Schema)} → areStable names namings = true →
    {whole members : List (Text × Json.Value)} → MembersRead origin whole namings members →
    ∀ m ∈ members, m.2.All (Derived names (.object whole))
  | [], _, _, _, h => by
      cases h
      exact List.forall_mem_nil _
  | (naming, schema) :: rest, hstable, _, _, h => by
      obtain ⟨_, _, hschema, hrest⟩ := are_stable_cons hstable
      cases h with
      | present hvalue hcheck _ hread =>
          exact List.forall_mem_cons.2
            ⟨derived_of_part (Json.Value.mem_parts_of_lookup hvalue)
              (check_derived schema hschema hcheck), members_derived hrest hread⟩
      | absent _ hread => exact members_derived hrest hread

end

end Schema

end ProgramInterface
