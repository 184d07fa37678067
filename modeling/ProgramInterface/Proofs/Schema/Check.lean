import ProgramInterface.Proofs.Json.Equality
import ProgramInterface.Schema.Check

/-!
# Values in normal form

A value is in the normal form of a schema if checking gives it back as it is. An array is, if its
items are (`check_list`), and a record is, if its members stand in the order of the schema under the
names they are written with, each in its own normal form and none of them null (`check_record`).
-/

namespace ProgramInterface

namespace Schema

variable {origin : Origin} {depth : Nat}

/-! ## Results -/

theorem under_ok {α : Type} (step : Step) (a : α) :
    under step (.ok a : Except (List Fault) α) = .ok a :=
  rfl

theorem under_eq_ok {α : Type} {step : Step} {result : Except (List Fault) α} {a : α} :
    under step result = .ok a ↔ result = .ok a := by
  cases result <;> simp [under, Except.mapError]

theorem gather_cons_ok {α : Type} {a : α} {rest : List (Except (List Fault) α)} {others : List α}
    (h : gather rest = .ok others) : gather (.ok a :: rest) = .ok (a :: others) := by
  simp only [gather, h]

theorem gather_ok {α : Type} (values : List α) :
    gather (values.map (Except.ok : α → Except (List Fault) α)) = .ok values := by
  induction values with
  | nil => rfl
  | cons value rest ih => exact gather_cons_ok ih

theorem under_indices_ok (values : List Json.Value) :
    underIndices (values.map .ok) = values.map .ok := by
  unfold underIndices
  refine List.ext_getElem (by simp) fun i _ _ => ?_
  simp [under_ok]

/-- The items of an array are in normal form if each of them is. -/
theorem gather_items {check : Json.Value → Checked} {items : List Json.Value}
    (h : ∀ item ∈ items, check item = .ok item) :
    (gather (underIndices (items.map check))).map Json.Value.array = .ok (.array items) := by
  rw [List.map_congr_left h, under_indices_ok, gather_ok]
  rfl

theorem check_list {item : Schema} {items : List Json.Value}
    (h : ∀ value ∈ items, item.check origin value = .ok value) :
    (list item).check origin (.array items) = .ok (.array items) := by
  rw [check]
  exact gather_items h

/-! ## Records -/

/-- Whether members stand in the order of a schema under the names they are written with, each in
normal form; optional ones may be left out. -/
inductive MembersFit (origin : Origin) :
    List (Naming × Schema) → List (Text × Json.Value) → Prop where
  | nil : MembersFit origin [] []
  | present {naming : Naming} {schema : Schema} {value : Json.Value}
      {namings : List (Naming × Schema)} {members : List (Text × Json.Value)}
      (hcheck : schema.check origin value = .ok value) (hnull : value ≠ .null)
      (hrest : MembersFit origin namings members) :
      MembersFit origin ((naming, schema) :: namings) ((naming.wire, value) :: members)
  | absent {naming : Naming} {schema : Schema} {namings : List (Naming × Schema)}
      {members : List (Text × Json.Value)} (hoptional : naming.isOptional = true)
      (hother : naming.other = none) (hrest : MembersFit origin namings members) :
      MembersFit origin ((naming, schema) :: namings) members

/-- The names that the members of a schema are written with. -/
def wireNames (namings : List (Naming × Schema)) : List Text :=
  namings.map (·.1.wire)

theorem MembersFit.names_sublist {namings : List (Naming × Schema)}
    {members : List (Text × Json.Value)} (h : MembersFit origin namings members) :
    (members.map (·.1)).Sublist (wireNames namings) := by
  induction h with
  | nil => exact .slnil
  | present _ _ _ ih => exact ih.cons_cons _
  | absent _ _ _ ih => exact ih.cons _

theorem found_of_lookup {naming : Naming} {members : List (Text × Json.Value)}
    {value : Json.Value} (h : Json.Value.lookup? naming.wire members = some value) :
    naming.found? members = some naming.wire := by
  unfold Naming.found? foundName?
  rw [List.find?_cons, h]
  rfl

theorem found_eq_none {naming : Naming} {members : List (Text × Json.Value)}
    (h : Json.Value.lookup? naming.wire members = none) (hother : naming.other = none) :
    naming.found? members = none := by
  unfold Naming.found? foundName?
  rw [List.find?_cons, h, hother]
  rfl

theorem part_of_ne_null {wire : Text} {value : Json.Value} (h : value ≠ .null) :
    partOf wire value = [(wire, value)] := by
  unfold partOf
  split
  · exact absurd rfl h
  · rfl

/-- Checking members that fit gives them back and uses all of their names. `all` are the members of
the whole record, of which some may have been checked before. -/
theorem MembersFit.check {namings : List (Naming × Schema)}
    {members : List (Text × Json.Value)} (h : MembersFit origin namings members)
    (all : List (Text × Json.Value)) (hnodup : (wireNames namings).Nodup)
    (hfound : ∀ m ∈ members, Json.Value.lookup? m.1 all = some m.2)
    (habsent : ∀ wire ∈ wireNames namings, wire ∉ members.map (·.1) →
      Json.Value.lookup? wire all = none) :
    (∃ parts, gather (checkMembers origin namings all) = .ok parts ∧ parts.flatten = members) ∧
      namings.filterMap (fun naming => naming.1.found? all) = members.map (·.1) := by
  -- Members are looked up in the whole record, so `all` stays as it is while the rest shrinks.
  induction h with
  | nil => exact ⟨⟨[], rfl, rfl⟩, rfl⟩
  | @present naming schema value namings members hcheck hnull hrest ih =>
      have hwire : naming.wire ∉ wireNames namings := (List.nodup_cons.1 hnodup).1
      have hvalue : Json.Value.lookup? naming.wire all = some value :=
        hfound _ (List.mem_cons_self ..)
      have hothers : ∀ wire ∈ wireNames namings, wire ∉ members.map (·.1) →
          Json.Value.lookup? wire all = none := by
        intro wire hmem hnot
        refine habsent wire (List.mem_cons_of_mem _ hmem) ?_
        rw [List.map_cons, List.mem_cons, not_or]
        refine ⟨?_, hnot⟩
        rintro rfl
        exact hwire hmem
      obtain ⟨⟨parts, hparts, rfl⟩, hused⟩ := ih (List.nodup_cons.1 hnodup).2
        (fun m hm => hfound m (List.mem_cons_of_mem _ hm)) hothers
      refine ⟨⟨[(naming.wire, value)] :: parts, ?_, rfl⟩, ?_⟩
      · rw [checkMembers, found_of_lookup hvalue]
        simp only [hvalue, hcheck, under_ok, Except.map, part_of_ne_null hnull]
        exact gather_cons_ok hparts
      · simp only [List.filterMap_cons, found_of_lookup hvalue, hused, List.map_cons]
  | @absent naming schema namings members hoptional hother hrest ih =>
      have hwire : naming.wire ∉ wireNames namings := (List.nodup_cons.1 hnodup).1
      have hnone : Json.Value.lookup? naming.wire all = none :=
        habsent _ (List.mem_cons_self ..) fun hmem => hwire (hrest.names_sublist.subset hmem)
      have hunfound : naming.found? all = none := found_eq_none hnone hother
      obtain ⟨⟨parts, hparts, rfl⟩, hused⟩ := ih (List.nodup_cons.1 hnodup).2 hfound
        fun wire hmem => habsent wire (List.mem_cons_of_mem _ hmem)
      refine ⟨⟨[] :: parts, ?_, rfl⟩, ?_⟩
      · rw [checkMembers, hunfound]
        simp only [hoptional, if_true]
        exact gather_cons_ok hparts
      · simp only [List.filterMap_cons, hunfound, hused]

/-- A record of members that fit and break no rule is in normal form. -/
theorem check_record {name : String} {namings : List (Naming × Schema)} {needs : List Need}
    {members : List (Text × Json.Value)} (h : MembersFit origin namings members)
    (hnodup : (wireNames namings).Nodup) (hrules : brokenRules needs members = []) :
    (record name namings needs).check origin (.object members) = .ok (.object members) := by
  obtain ⟨⟨parts, hparts, hflatten⟩, hused⟩ := h.check members hnodup
    (fun m hm => Json.Value.lookup_of_mem (hnodup.sublist h.names_sublist) hm)
    (fun wire _ hnot => Json.Value.lookup_eq_none hnot)
  have hsurplus : surplusFaults (members.map (·.1)) members = [] := by
    unfold surplusFaults
    rw [List.map_eq_nil_iff, List.filter_eq_nil_iff]
    intro m hm
    simpa using ⟨m.2, hm⟩
  rw [check, hused]
  simp only [assemble, hparts, hsurplus, hflatten, bind, Except.bind, obey, hrules]

/-! ## Types -/

/-- The items of a tuple. -/
def checkElements (origin : Origin) (depth : Nat) : Json.Value → Checked
  | .array items => (gather (underIndices (items.map (checkType origin depth)))).map .array
  | _ => reject .notList

/-- The forms that a record can have as a type, in the order in which they are tried. -/
def typeChecks (origin : Origin) (depth : Nat) (members : List (Text × Json.Value)) :
    List (String × Checked) :=
  let tuple? := foundName? ["tuple", "items"] members
  typeForms.zip
    [single "vec" "vec" members
        ((Json.Value.lookup? "vec" members).map (checkType origin (depth + 1))),
      single "tuple" (tuple?.getD []) members
        ((tuple?.bind (Json.Value.lookup? · members)).map (checkElements origin (depth + 1))),
      single "option" "option" members
        ((Json.Value.lookup? "option" members).map (checkType origin (depth + 1))),
      single "defined" "defined" members
        ((Json.Value.lookup? "defined" members).map (checkText 1 none))]

theorem check_type_object (hadmits : origin.admits (depth + 1) = true)
    (members : List (Text × Json.Value)) :
    checkType origin depth (.object members) =
      firstOf [notTextFault] (typeChecks origin depth members) := by
  rw [checkType.eq_def]
  dsimp only
  rw [if_pos hadmits]
  -- The definition matches on what is found, where `typeChecks` maps over it. The two agree form by
  -- form.
  refine congrArg (firstOf _) (congrArg typeForms.zip (congrArg₂ List.cons ?_
    (congrArg₂ List.cons ?_ (congrArg₂ List.cons ?_ rfl))))
  · refine congrArg (single _ _ _) ?_
    split <;> exact (congrArg (Option.map (checkType origin (depth + 1))) ‹_›).symm
  · refine congrArg (single _ _ _) ?_
    split
    · rename_i h
      rw [h]
      rfl
    · rename_i found h
      rw [h]
      simp only [Option.bind_some]
      split
      · rename_i h
        rw [h]
        rfl
      · rename_i items h
        rw [h]
        simp [checkElements]
      · rename_i value hitems h
        rw [h]
        simp only [Option.map_some, checkElements]
  · refine congrArg (single _ _ _) ?_
    split <;> exact (congrArg (Option.map (checkType origin (depth + 1))) ‹_›).symm

theorem first_of_ok (faults : List Fault) (form : String) (value : Json.Value)
    (rest : List (String × Checked)) :
    firstOf faults ((form, .ok value) :: rest) = .ok value :=
  rfl

/-- A form that is not there leaves the choice to those after it. -/
theorem first_of_missing (faults : List Fault) (form : String) (wire found : Text)
    (members : List (Text × Json.Value)) (rest : List (String × Checked)) :
    ∃ more, firstOf faults ((form, single wire found members none) :: rest) =
      firstOf more rest :=
  ⟨_, rfl⟩

/-- A form whose only member is in normal form is in normal form itself. -/
theorem single_ok (wire : Text) (value : Json.Value) :
    single wire wire [(wire, value)] (some (.ok value)) = .ok (.object [(wire, value)]) := by
  have hsurplus : surplusFaults [wire] [(wire, value)] = [] := by
    simp [surplusFaults]
  simp [single, assemble, hsurplus, gather, under_ok, Except.map]

end Schema

end ProgramInterface
