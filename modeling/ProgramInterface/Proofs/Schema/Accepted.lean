import Mathlib.Tactic.SplitIfs
import ProgramInterface.Proofs.Json.Parts
import ProgramInterface.Proofs.Schema.Check

/-!
# What the schema accepts

Checking gives an accepted value in its normal form. What a normal form looks like is told backwards
along the schema: an array has items in normal form (`check_list_eq_ok`), a record has members in
normal form under the names they are written with (`check_record_eq_ok`), and a type is a text or one
of four forms (`check_type_eq_ok`). What holds of all accepted types is shown form by form
(`check_type_induction`).
-/

namespace ProgramInterface

namespace Schema

variable {origin : Origin} {depth : Nat}

/-! ## Results that are good -/

theorem gather_eq_ok {α : Type} {results : List (Except (List Fault) α)} {values : List α} :
    gather results = .ok values ↔ results = values.map .ok := by
  constructor
  · intro h
    induction results generalizing values with
    | nil =>
        cases h
        rfl
    | cons first rest ih =>
        unfold gather at h
        split at h
        · rename_i a others hrest
          cases h
          rw [List.map_cons, ih hrest]
        all_goals cases h
  · rintro rfl
    exact gather_ok values

/-- What gathering the checked items of an array gives. -/
theorem gather_items_eq_ok {check : Json.Value → Checked} {items : List Json.Value}
    {normal : Json.Value}
    (h : (gather (underIndices (items.map check))).map Json.Value.array = .ok normal) :
    ∃ normals, normal = .array normals ∧
      ∀ part ∈ normals, ∃ item ∈ items, check item = .ok part := by
  cases hgather : gather (underIndices (items.map check)) with
  | error faults => simp [hgather, Except.map] at h
  | ok normals =>
      simp only [hgather, Except.map, Except.ok.injEq] at h
      refine ⟨normals, h.symm, fun part hpart => ?_⟩
      have hresults := gather_eq_ok.1 hgather
      have hok : Except.ok part ∈ underIndices (items.map check) :=
        hresults ▸ List.mem_map_of_mem hpart
      obtain ⟨⟨result, index⟩, hresult, hunder⟩ := List.mem_map.1 hok
      obtain ⟨item, hitem, hcheck⟩ := List.mem_map.1 (List.fst_mem_of_mem_zipIdx hresult)
      exact ⟨item, hitem, hcheck.trans (under_eq_ok.1 hunder)⟩

theorem assemble_eq_ok {used : List Text} {members : List (Text × Json.Value)}
    {results : List (Except (List Fault) (List (Text × Json.Value)))} {normal : Json.Value}
    (h : assemble used members results = .ok normal) :
    ∃ parts, gather results = .ok parts ∧ normal = .object parts.flatten := by
  unfold assemble at h
  split at h
  · cases h
    exact ⟨_, ‹_›, rfl⟩
  all_goals cases h

theorem obey_eq_ok {needs : List Need} {record normal : Json.Value}
    (h : obey needs record = .ok normal) :
    normal = record ∧ ∀ parts, record = .object parts → brokenRules needs parts = [] := by
  unfold obey at h
  split at h
  · split at h
    · cases h
      exact ⟨rfl, fun parts hparts => by cases hparts; assumption⟩
    · cases h
  · cases h
    rename_i hobject
    exact ⟨rfl, fun parts hparts => absurd hparts (hobject parts)⟩

/-! ## Scalars -/

theorem check_text_eq_ok {least : Nat} {value normal : Json.Value}
    (h : (text least).check origin value = .ok normal) : ∃ t, normal = .text t := by
  rw [check] at h
  unfold checkText reject at h
  split at h
  · split_ifs at h <;> (cases h; exact ⟨_, rfl⟩)
  · cases h

/-- A text is accepted as it is. -/
theorem check_text_same {least : Nat} {most : Option Nat} {value normal : Json.Value}
    (h : checkText least most value = .ok normal) : normal = value := by
  unfold checkText reject at h
  split at h
  · split_ifs at h
    · cases h
      rfl
    · split at h
      · split_ifs at h
        cases h
        rfl
      · cases h
        rfl
  · cases h

theorem check_integer_eq_ok {value normal : Json.Value} (h : integer.check origin value = .ok normal) :
    ∃ n, integerOf value = .ok n ∧ normal = .int n := by
  rw [check] at h
  unfold checkInteger reject at h
  split at h
  · rename_i n hn
    cases h
    exact ⟨n, hn, rfl⟩
  · cases h

theorem check_truth_eq_ok {value normal : Json.Value} (h : truth.check origin value = .ok normal) :
    ∃ b, normal = .bool b := by
  rw [check] at h
  unfold checkTruth reject at h
  split at h
  · cases h
    exact ⟨_, rfl⟩
  · cases h

theorem check_word_eq_ok {choices : List String} {value normal : Json.Value}
    (h : (word choices).check origin value = .ok normal) : ∃ w ∈ choices, normal = .ofString w := by
  rw [check] at h
  unfold checkWord reject at h
  split at h
  · split_ifs at h with hchoice
    cases h
    obtain ⟨w, hw, hequal⟩ := List.any_eq_true.1 hchoice
    exact ⟨w, hw, congrArg Json.Value.text (beq_iff_eq.1 hequal).symm⟩
  · cases h

/-! ## Types -/

/-- The choice falls on one of the forms. -/
theorem first_of_eq_ok {faults : List Fault} {forms : List (String × Checked)}
    {normal : Json.Value} (h : firstOf faults forms = .ok normal) :
    ∃ form ∈ forms, form.2 = .ok normal := by
  induction forms generalizing faults with
  | nil => cases h
  | cons form rest ih =>
      rw [firstOf] at h
      split at h
      · rename_i value hvalue
        cases h
        exact ⟨form, List.mem_cons_self .., under_eq_ok.1 hvalue⟩
      · obtain ⟨other, hother, hok⟩ := ih h
        exact ⟨other, List.mem_cons_of_mem _ hother, hok⟩

theorem single_eq_ok {wire found : Text} {members : List (Text × Json.Value)}
    {result : Option Checked} {normal : Json.Value}
    (h : single wire found members result = .ok normal) :
    ∃ inner, result = some (.ok inner) ∧ normal = .object [(wire, inner)] := by
  unfold single at h
  split at h
  · obtain ⟨parts, hparts, _⟩ := assemble_eq_ok h
    cases hparts
  · rename_i checked
    obtain ⟨parts, hparts, rfl⟩ := assemble_eq_ok h
    cases checked with
    | error faults => cases hparts
    | ok inner =>
        cases hparts
        exact ⟨inner, rfl, rfl⟩

/-- A value that is refused in all forms is not accepted. -/
theorem refuse_forms_ne_ok {cause : String → Cause} {normal : Json.Value} :
    refuseForms cause ≠ .ok normal := by
  intro h
  obtain ⟨form, hform, hok⟩ := first_of_eq_ok h
  obtain ⟨name, _, rfl⟩ := List.mem_map.1 hform
  cases hok

/-- What an accepted type looks like: a text, or a record of one of four forms, of which all but the
last hold types again. -/
inductive TypeRead (origin : Origin) (depth : Nat) : Json.Value → Json.Value → Prop where
  | text (t : Text) : TypeRead origin depth (.text t) (.text t)
  | vector {members : List (Text × Json.Value)} {value normal : Json.Value}
      (hadmits : origin.admits (depth + 1) = true)
      (hvalue : Json.Value.lookup? "vec" members = some value)
      (hcheck : checkType origin (depth + 1) value = .ok normal) :
      TypeRead origin depth (.object members) (.record [("vec", normal)])
  | tuple {members : List (Text × Json.Value)} {found : Text} {items normals : List Json.Value}
      (hadmits : origin.admits (depth + 1) = true)
      (hitems : Json.Value.lookup? found members = some (.array items))
      (hcheck : ∀ normal ∈ normals, ∃ item ∈ items,
        checkType origin (depth + 1) item = .ok normal) :
      TypeRead origin depth (.object members) (.record [("tuple", .array normals)])
  | option {members : List (Text × Json.Value)} {value normal : Json.Value}
      (hadmits : origin.admits (depth + 1) = true)
      (hvalue : Json.Value.lookup? "option" members = some value)
      (hcheck : checkType origin (depth + 1) value = .ok normal) :
      TypeRead origin depth (.object members) (.record [("option", normal)])
  | defined {members : List (Text × Json.Value)} {value normal : Json.Value}
      (hadmits : origin.admits (depth + 1) = true)
      (hvalue : Json.Value.lookup? "defined" members = some value)
      (hcheck : checkText 1 none value = .ok normal) :
      TypeRead origin depth (.object members) (.record [("defined", normal)])

theorem check_type_eq_ok {value normal : Json.Value}
    (h : checkType origin depth value = .ok normal) : TypeRead origin depth value normal := by
  cases value with
  | text t =>
      rw [checkType] at h
      cases h
      exact .text t
  | object members =>
      cases hadmits : origin.admits (depth + 1) with
      | false =>
          rw [checkType, if_neg (Bool.not_eq_true _ ▸ hadmits)] at h
          exact absurd h refuse_forms_ne_ok
      | true =>
          rw [check_type_object hadmits] at h
          -- The first form that fits is the answer, so each of the four is looked at.
          obtain ⟨form, hform, hok⟩ := first_of_eq_ok h
          simp only [typeChecks, typeForms, List.zip_cons_cons, List.zip_nil_right,
            List.mem_cons, List.not_mem_nil, or_false] at hform
          obtain rfl | rfl | rfl | rfl := hform
          · obtain ⟨inner, hinner, rfl⟩ := single_eq_ok hok
            obtain ⟨found, hfound, hcheck⟩ := Option.map_eq_some_iff.1 hinner
            exact .vector hadmits hfound hcheck
          · obtain ⟨inner, hinner, rfl⟩ := single_eq_ok hok
            obtain ⟨found, hfound, hcheck⟩ := Option.map_eq_some_iff.1 hinner
            obtain ⟨name, -, hitems⟩ := Option.bind_eq_some_iff.1 hfound
            cases found with
            | array items =>
                obtain ⟨normals, rfl, hnormals⟩ := gather_items_eq_ok hcheck
                exact .tuple hadmits hitems hnormals
            | _ => cases hcheck
          · obtain ⟨inner, hinner, rfl⟩ := single_eq_ok hok
            obtain ⟨found, hfound, hcheck⟩ := Option.map_eq_some_iff.1 hinner
            exact .option hadmits hfound hcheck
          · obtain ⟨inner, hinner, rfl⟩ := single_eq_ok hok
            obtain ⟨found, hfound, hcheck⟩ := Option.map_eq_some_iff.1 hinner
            exact .defined hadmits hfound hcheck
  | _ =>
      rw [checkType] at h
      · exact absurd h refuse_forms_ne_ok
      all_goals rintro _ ⟨⟩

theorem size_lt_of_lookup {name : Text} {members : List (Text × Json.Value)} {value : Json.Value}
    (h : Json.Value.lookup? name members = some value) :
    sizeOf value < sizeOf (Json.Value.object members) := by
  have hmembers := sizeOf_lt_of_lookup? h
  rw [Json.Value.object.sizeOf_spec]
  omega

theorem size_lt_of_item {name : Text} {members : List (Text × Json.Value)} {items : List Json.Value}
    {item : Json.Value} (h : Json.Value.lookup? name members = some (.array items))
    (hitem : item ∈ items) : sizeOf item < sizeOf (Json.Value.object members) := by
  have hitemSize := List.sizeOf_lt_of_mem hitem
  have harraySize := size_lt_of_lookup h
  rw [Json.Value.array.sizeOf_spec] at harraySize
  omega

/-- What holds of all accepted types and their normal forms at their depths, form by form. By induction
on the size of the value that is checked. -/
theorem check_type_induction {motive : Nat → Json.Value → Json.Value → Prop}
    (text : ∀ depth t, motive depth (.text t) (.text t))
    (vector : ∀ {depth members value normal}, origin.admits (depth + 1) = true →
      Json.Value.lookup? "vec" members = some value →
      motive (depth + 1) value normal → motive depth (.object members) (.record [("vec", normal)]))
    (tuple : ∀ {depth members found items normals}, origin.admits (depth + 1) = true →
      Json.Value.lookup? found members = some (.array items) →
      (∀ normal ∈ normals, ∃ item ∈ items, motive (depth + 1) item normal) →
      motive depth (.object members) (.record [("tuple", .array normals)]))
    (option : ∀ {depth members value normal}, origin.admits (depth + 1) = true →
      Json.Value.lookup? "option" members = some value →
      motive (depth + 1) value normal →
      motive depth (.object members) (.record [("option", normal)]))
    (defined : ∀ {depth members value normal}, origin.admits (depth + 1) = true →
      Json.Value.lookup? "defined" members = some value → checkText 1 none value = .ok normal →
      motive depth (.object members) (.record [("defined", normal)]))
    {value normal : Json.Value} (h : checkType origin depth value = .ok normal) :
    motive depth value normal := by
  induction hsize : sizeOf value using Nat.strongRecOn generalizing depth value normal with
  | ind size ih =>
      subst hsize
      cases check_type_eq_ok h with
      | text t => exact text depth t
      | vector hadmits hvalue hcheck =>
          exact vector hadmits hvalue (ih _ (size_lt_of_lookup hvalue) hcheck rfl)
      | tuple hadmits hitems hcheck =>
          refine tuple hadmits hitems fun part hpart => ?_
          obtain ⟨item, hitem, hok⟩ := hcheck part hpart
          exact ⟨item, hitem, ih _ (size_lt_of_item hitems hitem) hok rfl⟩
      | option hadmits hvalue hcheck =>
          exact option hadmits hvalue (ih _ (size_lt_of_lookup hvalue) hcheck rfl)
      | defined hadmits hvalue hcheck => exact defined hadmits hvalue hcheck

/-! ## Records -/

/-- The schemas that a null may fit. -/
def isNullable : Schema → Bool
  | nullable _ => true
  | _ => false

theorem check_list_eq_ok {item : Schema} {value normal : Json.Value}
    (h : (list item).check origin value = .ok normal) :
    ∃ items normals, value = .array items ∧ normal = .array normals ∧
      ∀ part ∈ normals, ∃ v ∈ items, item.check origin v = .ok part := by
  cases value with
  | array items =>
      rw [check] at h
      obtain ⟨normals, hnormal, hparts⟩ := gather_items_eq_ok h
      exact ⟨items, normals, rfl, hnormal, hparts⟩
  | _ =>
      rw [check] at h
      · cases h
      · rintro _ ⟨⟩

theorem check_nullable_eq_ok {inner : Schema} {value normal : Json.Value}
    (h : (nullable inner).check origin value = .ok normal) :
    normal = .null ∨ inner.check origin value = .ok normal := by
  cases value with
  | null =>
      rw [check] at h
      cases h
      exact .inl rfl
  | _ =>
      rw [check] at h
      · exact .inr h
      · rintro ⟨⟩

/-- What an accepted record holds: members in the order of a schema under the names they are written
with, each the normal form of a member of what was checked. An optional one may be missing, or left
out as null. -/
inductive MembersRead (origin : Origin) (whole : List (Text × Json.Value)) :
    List (Naming × Schema) → List (Text × Json.Value) → Prop where
  | nil : MembersRead origin whole [] []
  | present {naming : Naming} {schema : Schema} {name : Text} {value normal : Json.Value}
      {namings : List (Naming × Schema)} {members : List (Text × Json.Value)}
      (hvalue : Json.Value.lookup? name whole = some value)
      (hcheck : schema.check origin value = .ok normal)
      (hnull : normal ≠ .null) (hrest : MembersRead origin whole namings members) :
      MembersRead origin whole ((naming, schema) :: namings) ((naming.wire, normal) :: members)
  | absent {naming : Naming} {schema : Schema} {namings : List (Naming × Schema)}
      {members : List (Text × Json.Value)}
      (habsent : naming.isOptional = true ∨ ∃ value, schema.check origin value = .ok .null)
      (hrest : MembersRead origin whole namings members) :
      MembersRead origin whole ((naming, schema) :: namings) members

/-- A name that a member was found by is the name of a member. -/
theorem lookup_of_found {names : List Text} {members : List (Text × Json.Value)} {found : Text}
    (h : foundName? names members = some found) :
    Json.Value.lookup? found members ≠ none := by
  have hfound := List.find?_some h
  exact Option.isSome_iff_ne_none.1 hfound

theorem check_members_eq_ok {namings : List (Naming × Schema)} {members : List (Text × Json.Value)}
    {parts : List (List (Text × Json.Value))}
    (h : gather (checkMembers origin namings members) = .ok parts) :
    MembersRead origin members namings parts.flatten := by
  induction namings generalizing parts with
  | nil =>
      cases h
      exact .nil
  | cons head rest ih =>
      obtain ⟨naming, schema⟩ := head
      rw [gather_eq_ok, checkMembers] at h
      obtain ⟨part, others, rfl, hpart, hothers⟩ := List.map_eq_cons_iff.1 h.symm
      have hrest : MembersRead origin members rest others.flatten :=
        ih (gather_eq_ok.2 hothers.symm)
      split at hpart
      -- Nothing is found under a name of the member, so it must be optional.
      · split_ifs at hpart with hoptional
        cases hpart
        exact .absent (.inl hoptional) hrest
      · rename_i found hfound
        split at hpart
        · rename_i hnone
          exact absurd hnone (lookup_of_found hfound)
        · rename_i value hvalue
          cases hcheck : schema.check origin value with
          | error faults => rw [hcheck] at hpart; cases hpart
          | ok normal =>
              rw [hcheck, under_ok] at hpart
              cases hpart
              -- A null that is accepted is left out, as if the member were missing.
              by_cases hnull : normal = .null
              · subst hnull
                exact .absent (.inr ⟨value, hcheck⟩) hrest
              · rw [part_of_ne_null hnull]
                exact .present hvalue hcheck hnull hrest

theorem check_record_eq_ok {name : String} {namings : List (Naming × Schema)} {needs : List Need}
    {value normal : Json.Value}
    (h : (record name namings needs).check origin value = .ok normal) :
    ∃ whole members, value = .object whole ∧ normal = .object members ∧
      MembersRead origin whole namings members ∧ brokenRules needs members = [] := by
  cases value with
  | object whole =>
      rw [check] at h
      cases hassemble : assemble (namings.filterMap fun naming => naming.1.found? whole) whole
          (checkMembers origin namings whole) with
      | error faults => rw [hassemble] at h; cases h
      | ok record =>
          obtain ⟨parts, hparts, rfl⟩ := assemble_eq_ok hassemble
          rw [hassemble] at h
          have hobey : obey needs (.object parts.flatten) = .ok normal := h
          obtain ⟨rfl, hrules⟩ := obey_eq_ok hobey
          exact ⟨whole, _, rfl, rfl, check_members_eq_ok hparts, hrules _ rfl⟩
  | _ =>
      rw [check] at h
      · cases h
      · rintro _ ⟨⟩

/-- A schema that is not for nulls gives none. -/
theorem check_ne_null {schema : Schema} (h : schema.isNullable = false) {value normal : Json.Value}
    (hcheck : schema.check origin value = .ok normal) : normal ≠ .null := by
  rintro rfl
  cases schema with
  | text least =>
      obtain ⟨t, ht⟩ := check_text_eq_ok hcheck
      cases ht
  | integer =>
      obtain ⟨n, _, hn⟩ := check_integer_eq_ok hcheck
      cases hn
  | truth =>
      obtain ⟨b, hb⟩ := check_truth_eq_ok hcheck
      cases hb
  | word choices =>
      obtain ⟨w, _, hw⟩ := check_word_eq_ok hcheck
      cases hw
  | type =>
      rw [check] at hcheck
      cases check_type_eq_ok hcheck
  | list item =>
      obtain ⟨_, normals, _, hnormals, _⟩ := check_list_eq_ok hcheck
      cases hnormals
  | nullable inner => exact Bool.noConfusion h
  | record name namings needs =>
      obtain ⟨_, members, _, hmembers, _⟩ := check_record_eq_ok hcheck
      cases hmembers

/-- A member that must be there is there. -/
theorem MembersRead.required {whole : List (Text × Json.Value)} {naming : Naming} {schema : Schema}
    {namings : List (Naming × Schema)} {members : List (Text × Json.Value)}
    (h : MembersRead origin whole ((naming, schema) :: namings) members)
    (hrequired : naming.isOptional = false) (hnullable : schema.isNullable = false) :
    ∃ value normal rest, schema.check origin value = .ok normal ∧
      MembersRead origin whole namings rest ∧ members = (naming.wire, normal) :: rest := by
  cases h with
  | present _ hcheck _ hrest => exact ⟨_, _, _, hcheck, hrest, rfl⟩
  | absent habsent _ =>
      obtain hoptional | ⟨value, hcheck⟩ := habsent
      · exact absurd (hrequired.symm.trans hoptional) Bool.false_ne_true
      · exact absurd rfl (check_ne_null hnullable hcheck)

/-- An optional member is there or it is not. -/
theorem MembersRead.optional {whole : List (Text × Json.Value)} {naming : Naming} {inner : Schema}
    {namings : List (Naming × Schema)} {members : List (Text × Json.Value)}
    (h : MembersRead origin whole ((naming, nullable inner) :: namings) members) :
    MembersRead origin whole namings members ∨ ∃ value normal rest,
      inner.check origin value = .ok normal ∧ MembersRead origin whole namings rest ∧
        members = (naming.wire, normal) :: rest := by
  cases h with
  | present _ hcheck hnull hrest =>
      have hinner := (check_nullable_eq_ok hcheck).resolve_left hnull
      exact .inr ⟨_, _, _, hinner, hrest, rfl⟩
  | absent _ hrest => exact .inl hrest

end Schema

end ProgramInterface
