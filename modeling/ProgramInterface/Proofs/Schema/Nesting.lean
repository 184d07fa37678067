import ProgramInterface.Proofs.Json.Nesting
import ProgramInterface.Proofs.Schema.Accepted

/-!
# Checking and nesting

A normal form is not nested deeper than the value (`check_nesting_le`). Only the nesting of types
depends on how a value came, so a value that is not nested beyond the limit is judged alike as an object
and as text (`check_origin`).
-/

namespace ProgramInterface

namespace Schema

variable {origin : Origin} {depth : Nat}

/-! ## Nesting of normal forms -/

theorem nesting_single (name : String) (value : Json.Value) :
    (Json.Value.record [(name, value)]).nesting = value.nesting + 1 :=
  Nat.max_zero _

theorem nesting_of_lookup {name : Text} {members : List (Text × Json.Value)} {value : Json.Value}
    (h : Json.Value.lookup? name members = some value) :
    value.nesting < (Json.Value.object members).nesting :=
  Json.nesting_member_lt (Json.Value.mem_of_lookup h)

theorem check_type_nesting_le {value normal : Json.Value}
    (h : checkType origin depth value = .ok normal) : normal.nesting ≤ value.nesting := by
  refine check_type_induction (motive := fun _ value normal => normal.nesting ≤ value.nesting)
    (fun _ _ => Nat.le_refl _) ?vector ?tuple ?option ?defined h
  case vector =>
    intro depth members value normal _ hvalue ih
    rw [nesting_single]
    exact Nat.lt_of_le_of_lt ih (nesting_of_lookup hvalue)
  case tuple =>
    intro depth members found items normals _ hitems ih
    have hnormals : (Json.Value.array normals).nesting ≤ (Json.Value.array items).nesting := by
      refine Json.nesting_array_le_iff.2 fun part hpart => ?_
      obtain ⟨item, hitem, hle⟩ := ih part hpart
      exact Nat.lt_of_le_of_lt hle (Json.nesting_item_lt hitem)
    rw [nesting_single]
    exact Nat.lt_of_le_of_lt hnormals (nesting_of_lookup hitems)
  case option =>
    intro depth members value normal _ hvalue ih
    rw [nesting_single]
    exact Nat.lt_of_le_of_lt ih (nesting_of_lookup hvalue)
  case defined =>
    intro depth members value normal _ hvalue hcheck
    rw [nesting_single, check_text_same hcheck]
    exact nesting_of_lookup hvalue

mutual

/-- Checking nests nothing deeper. -/
theorem check_nesting_le : (schema : Schema) → {value normal : Json.Value} →
    schema.check origin value = .ok normal → normal.nesting ≤ value.nesting
  | text least, _, _, h => by
      obtain ⟨t, rfl⟩ := check_text_eq_ok h
      exact Nat.zero_le _
  | integer, _, _, h => by
      obtain ⟨n, _, rfl⟩ := check_integer_eq_ok h
      exact Nat.zero_le _
  | truth, _, _, h => by
      obtain ⟨b, rfl⟩ := check_truth_eq_ok h
      exact Nat.zero_le _
  | word choices, _, _, h => by
      obtain ⟨w, _, rfl⟩ := check_word_eq_ok h
      exact Nat.zero_le _
  | type, _, _, h => by
      rw [check] at h
      exact check_type_nesting_le h
  | list item, _, _, h => by
      obtain ⟨items, normals, rfl, rfl, hitems⟩ := check_list_eq_ok h
      refine Json.nesting_array_le_iff.2 fun part hpart => ?_
      obtain ⟨v, hv, hcheck⟩ := hitems part hpart
      exact Nat.lt_of_le_of_lt (check_nesting_le item hcheck) (Json.nesting_item_lt hv)
  | nullable inner, _, _, h => by
      rcases check_nullable_eq_ok h with rfl | hinner
      · exact Nat.zero_le _
      · exact check_nesting_le inner hinner
  | record _ namings _, _, _, h => by
      obtain ⟨whole, members, rfl, rfl, hread, _⟩ := check_record_eq_ok h
      exact Json.nesting_object_le_iff.2 (members_nesting_lt namings hread)

theorem members_nesting_lt : (namings : List (Naming × Schema)) →
    {whole members : List (Text × Json.Value)} → MembersRead origin whole namings members →
    ∀ m ∈ members, m.2.nesting < (Json.Value.object whole).nesting
  | [], _, _, h => by
      cases h
      exact List.forall_mem_nil _
  | (naming, schema) :: rest, _, _, h => by
      cases h with
      | present hvalue hcheck _ hread =>
          refine List.forall_mem_cons.2 ⟨?_, members_nesting_lt rest hread⟩
          exact Nat.lt_of_le_of_lt (check_nesting_le schema hcheck) (nesting_of_lookup hvalue)
      | absent _ hread => exact members_nesting_lt rest hread

end

/-! ## Objects and texts -/

theorem check_type_origin {value : Json.Value} (h : depth + value.nesting + 1 ≤ nestingLimit) :
    checkType .object depth value = checkType .text depth value := by
  have hadmits : Origin.object.admits (depth + 1) = true := decide_eq_true (by omega)
  have hadmitsText : Origin.text.admits (depth + 1) = true := rfl
  -- By induction on the size, since both the items of a tuple and the parts of other forms are checked.
  induction hsize : sizeOf value using Nat.strongRecOn generalizing depth value with
  | ind size ih =>
      subst hsize
      cases value with
      | object members =>
          have hinner : ∀ {name inner}, Json.Value.lookup? name members = some inner →
              checkType .object (depth + 1) inner = checkType .text (depth + 1) inner := by
            intro name inner hinner
            have hlt := nesting_of_lookup hinner
            have hroom : Origin.object.admits (depth + 1 + 1) = true := decide_eq_true (by omega)
            exact ih _ (size_lt_of_lookup hinner) (by omega) hroom rfl rfl
          have helements : ∀ {name inner}, Json.Value.lookup? name members = some inner →
              checkElements .object (depth + 1) inner = checkElements .text (depth + 1) inner := by
            intro name inner hinner
            cases inner with
            | array items =>
                have hlt := nesting_of_lookup hinner
                rw [checkElements, checkElements]
                refine congrArg (fun results => (gather (underIndices results)).map _)
                  (List.map_congr_left fun item hitem => ?_)
                have hitemLt := Json.nesting_item_lt hitem
                have hroom : Origin.object.admits (depth + 1 + 1) = true := decide_eq_true (by omega)
                exact ih _ (size_lt_of_item hinner hitem) (by omega) hroom rfl rfl
            | _ => rfl
          have htypes : ∀ name, (Json.Value.lookup? name members).map (checkType .object (depth + 1)) =
              (Json.Value.lookup? name members).map (checkType .text (depth + 1)) :=
            fun name => Option.map_congr fun _ hvalue => hinner hvalue
          have htuples : ∀ found? : Option Text,
              (found?.bind (Json.Value.lookup? · members)).map (checkElements .object (depth + 1)) =
                (found?.bind (Json.Value.lookup? · members)).map
                  (checkElements .text (depth + 1)) := by
            refine fun found? => Option.map_congr fun value hvalue => ?_
            obtain ⟨name, _, hitems⟩ := Option.bind_eq_some_iff.1 hvalue
            exact helements hitems
          rw [check_type_object hadmits, check_type_object hadmitsText, typeChecks, typeChecks]
          simp only [htypes, htuples]
      | text t => rw [checkType, checkType]
      | _ => rw [checkType, checkType, hadmits, hadmitsText] <;> rintro _ ⟨⟩

mutual

/-- Without types that are nested too deep a value is judged alike as an object and as text. -/
theorem check_origin : (schema : Schema) → {value : Json.Value} →
    value.nesting + 2 ≤ nestingLimit → schema.check .object value = schema.check .text value
  | text _, _, _ | integer, _, _ | truth, _, _ | word _, _, _ => by rw [check, check]
  | type, _, h => by
      rw [check, check]
      exact check_type_origin (by omega)
  | list item, value, h => by
      cases value with
      | array items =>
          rw [check, check]
          refine congrArg (fun results => (gather (underIndices results)).map _)
            (List.map_congr_left fun v hv => ?_)
          have hlt := Json.nesting_item_lt hv
          exact check_origin item (by omega)
      | _ => rw [check, check] <;> rintro _ ⟨⟩
  | nullable inner, value, h => by
      cases value with
      | null => rw [check, check]
      | _ => rw [check, check, check_origin inner h] <;> rintro ⟨⟩
  | record _ namings _, value, h => by
      cases value with
      | object members => rw [check, check, check_members_origin namings h]
      | _ => rw [check, check] <;> rintro _ ⟨⟩

theorem check_members_origin : (namings : List (Naming × Schema)) →
    {members : List (Text × Json.Value)} →
    (Json.Value.object members).nesting + 2 ≤ nestingLimit →
      checkMembers .object namings members = checkMembers .text namings members
  | [], _, _ => by rw [checkMembers, checkMembers]
  | (naming, schema) :: rest, members, h => by
      have hvalue : ∀ {name value}, Json.Value.lookup? name members = some value →
          schema.check .object value = schema.check .text value := by
        intro name value hvalue
        have hlt := nesting_of_lookup hvalue
        exact check_origin schema (by omega)
      rw [checkMembers, checkMembers, check_members_origin rest h]
      refine congrArg (· :: _) ?_
      split
      · rfl
      · split
        · rfl
        · rename_i found hfound
          rw [hvalue hfound]

end

end Schema

end ProgramInterface
