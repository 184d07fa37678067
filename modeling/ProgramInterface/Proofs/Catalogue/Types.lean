import Mathlib.Data.List.Forall2
import ProgramInterface.Proofs.Catalogue.Fields
import ProgramInterface.Proofs.Catalogue.FirstByName

/-!
# Account layouts and types agree

Account layouts list the structs of a program and types its structs and enumerations, each under the
name of the first declaration that has it (`account_names`, `type_names`). Where the type of an
account's name is a struct, both come from the same declaration and agree field by field
(`catalogs_agree`).
-/

namespace ProgramInterface

/-! ## Declarations -/

/-- The structs of a tree, in pre-order. -/
def structsOf (root : Node) : List Node :=
  root.preorder.filter (·.kind = .structItem)

/-- The structs and enumerations of a tree, in pre-order. -/
def structsAndEnumsOf (root : Node) : List Node :=
  root.preorder.filter fun node => node.kind = .structItem ∨ node.kind = .enumItem

theorem matching_struct (root : Node) : root.matching .struct = structsOf root := by
  rw [Node.matching_eq_filter_preorder]
  exact List.filter_congr fun node _ => by simp [QueryKind.isMatch, QueryKind.nodeKinds]

theorem matching_struct_or_enum (root : Node) :
    root.matching .structOrEnum = structsAndEnumsOf root := by
  rw [Node.matching_eq_filter_preorder]
  exact List.filter_congr fun node _ => by simp [QueryKind.isMatch, QueryKind.nodeKinds]

/-- The first of some items that has a name. -/
def firstNamed? (items : List Node) (name : Text) : Option Node :=
  items.find? (itemName · == name)

theorem mem_account_layouts {root : Node} {layout : AccountLayout} :
    layout ∈ accountLayouts root ↔ layout.name ≠ [] ∧
      ∃ item, firstNamed? (structsOf root) layout.name = some item ∧
        layout.fields = fieldsOf .account item := by
  unfold accountLayouts
  rw [matching_struct, List.mem_map]
  constructor
  · rintro ⟨⟨name, item⟩, hmem, rfl⟩
    obtain ⟨hname, _, hfirst⟩ := mem_first_by_name.1 hmem
    exact ⟨hname, item, hfirst, rfl⟩
  · rintro ⟨hname, item, hfirst, hfields⟩
    refine ⟨(layout.name, item), mem_first_by_name.2 ⟨hname, nofun, hfirst⟩, ?_⟩
    dsimp only
    rw [← hfields]

theorem mem_type_entries {mode : FieldMode} {root : Node} {entry : TypeEntry} :
    entry ∈ typeEntries mode root ↔ entry.name ≠ [] ∧
      ∃ item, firstNamed? (structsAndEnumsOf root) entry.name = some item ∧
        entry.body = typeBodyOf mode item := by
  unfold typeEntries
  rw [matching_struct_or_enum, List.mem_map]
  constructor
  · rintro ⟨⟨name, item⟩, hmem, rfl⟩
    obtain ⟨hname, _, hfirst⟩ := mem_first_by_name.1 hmem
    exact ⟨hname, item, hfirst, rfl⟩
  · rintro ⟨hname, item, hfirst, hbody⟩
    refine ⟨(entry.name, item), mem_first_by_name.2 ⟨hname, nofun, hfirst⟩, ?_⟩
    dsimp only
    rw [← hbody]

/-- Account layouts have the names of the structs. -/
theorem account_names (root : Node) :
    ListsFirst ((accountLayouts root).map (·.name)) ((structsOf root).map itemName) := by
  have hnames : (accountLayouts root).map (·.name) =
      (firstByName [] (structsOf root)).map (·.1) := by
    unfold accountLayouts
    rw [matching_struct, List.map_map]
    rfl
  rw [hnames]
  exact first_by_name_lists (structsOf root)

/-- Types have the names of the structs and enumerations. -/
theorem type_names (mode : FieldMode) (root : Node) :
    ListsFirst ((typeEntries mode root).map (·.name)) ((structsAndEnumsOf root).map itemName) := by
  have hnames : (typeEntries mode root).map (·.name) =
      (firstByName [] (structsAndEnumsOf root)).map (·.1) := by
    unfold typeEntries
    rw [matching_struct_or_enum, List.map_map]
    rfl
  rw [hnames]
  exact first_by_name_lists (structsAndEnumsOf root)

theorem kind_of_first {root item : Node} {name : Text}
    (h : firstNamed? (structsAndEnumsOf root) name = some item) :
    item.kind = .structItem ∨ item.kind = .enumItem := by
  have hmem := List.mem_of_find?_eq_some h
  simpa using (List.mem_filter.1 hmem).2

/-- A struct that comes first among structs and enumerations comes first among structs. -/
theorem first_struct_of_first {root item : Node} {name : Text}
    (h : firstNamed? (structsAndEnumsOf root) name = some item) (hkind : item.kind = .structItem) :
    firstNamed? (structsOf root) name = some item := by
  unfold firstNamed? structsAndEnumsOf at h
  unfold firstNamed? structsOf
  rw [List.find?_filter] at h ⊢
  obtain ⟨hitem, front, back, heq, hfront⟩ := List.find?_eq_some_iff_append.1 h
  simp only [decide_eq_true_eq] at hitem
  refine List.find?_eq_some_iff_append.2
    ⟨decide_eq_true ⟨decide_eq_true hkind, hitem.2⟩, front, back, heq, fun other hother => ?_⟩
  -- In front of the item no struct or enumeration has its name, so no struct has.
  have hnot := hfront other hother
  simp only [Bool.not_eq_true', decide_eq_false_iff_not, decide_eq_true_eq] at hnot ⊢
  exact fun ⟨hstruct, hname⟩ => hnot ⟨Or.inl hstruct, hname⟩

/-! ## Fields -/

/-- Whether a field of an account layout and a field of a type agree, the latter read in a mode:
they have one name, one is primitive where the other is, and otherwise the first is named by the
text of its type. In field mode the second is then a vector if that text says so, and else named
alike. -/
structure FieldsAgree (mode : FieldMode) (type : Node) (accountField typeField : Field) : Prop where
  name : accountField.name = typeField.name
  primitive : ∀ p, accountField.type = .primitive p ↔ typeField.type = .primitive p
  raw : (∀ p, accountField.type ≠ .primitive p) →
    accountField.type = .named (Text.ofString type.text)
  vector : mode = .field → (∀ p, accountField.type ≠ .primitive p) →
    "Vec<".toList <:+: type.text.toList → ∃ element, typeField.type = .vector element
  named : mode = .field → (∀ p, accountField.type ≠ .primitive p) →
    ¬ "Vec<".toList <:+: type.text.toList →
    typeField.type = .named (Text.ofString type.text)

theorem Node.vector_shape_ne_primitive (mode : FieldMode) (node : Node) (p : Text) :
    node.vectorShape mode ≠ .primitive p := by
  unfold vectorShape
  split <;> exact nofun

/-- A type is primitive in some mode if and only if it is in account mode. -/
theorem Node.shape_primitive_iff {mode : FieldMode} {node : Node} {p : Text} :
    node.shape mode = .primitive p ↔ node.kind = .primitiveType ∧ p = node.content := by
  by_cases hkind : node.kind = .primitiveType
  · rw [shape_primitive hkind]
    simp [hkind, eq_comm]
  · refine iff_of_false ?_ fun h => hkind h.1
    cases mode with
    | account =>
        rw [shape_account hkind]
        exact nofun
    | field =>
        rw [shape_field hkind]
        exact vector_shape_ne_primitive .field node p
    | structural =>
        rcases shape_structural_cases node with
          ⟨h, _⟩ | ⟨_, h⟩ | ⟨_, _, h⟩ | ⟨_, h⟩
        · exact absurd h hkind
        · rw [h]
          exact nofun
        · rw [h]
          exact nofun
        · rw [h]
          exact vector_shape_ne_primitive .structural node p

theorem place_fields_agree (mode : FieldMode) (place : FieldPlace) :
    FieldsAgree mode place.type (place.read .account) (place.read mode) := by
  have hkind : (∀ p, (place.read .account).type ≠ .primitive p) →
      place.type.kind ≠ .primitiveType := fun h hkind => h _ (Node.shape_primitive hkind)
  refine ⟨rfl, fun p => ?_, fun h => ?_, ?_, ?_⟩
  · exact Node.shape_primitive_iff.trans Node.shape_primitive_iff.symm
  · exact Node.shape_account (hkind h)
  · rintro rfl h hvector
    have hmentions : place.type.mentionsVector = true := occurs_in_iff.2 hvector
    have hshape := Node.shape_field (hkind h)
    rw [Node.vectorShape, if_pos hmentions] at hshape
    exact ⟨_, hshape⟩
  · rintro rfl h hvector
    have hmentions : ¬ place.type.mentionsVector = true := fun hm =>
      hvector (occurs_in_iff.1 hm)
    have hshape := Node.shape_field (hkind h)
    rw [Node.vectorShape, if_neg hmentions] at hshape
    exact hshape

/-- The fields of an item in account mode and in any mode agree one by one. -/
theorem fields_agree (mode : FieldMode) (item : Node) :
    List.Forall₂ (fun accountField typeField =>
        ∃ type ∈ item.preorder, FieldsAgree mode type accountField typeField)
      (fieldsOf .account item) (fieldsOf mode item) := by
  rw [fields_of_eq, fields_of_eq, List.forall₂_map_left_iff, List.forall₂_map_right_iff,
    List.forall₂_same]
  exact fun place hplace => ⟨place.type, mem_places_of hplace, place_fields_agree mode place⟩

/-! ## Catalogues -/

/-- Account layouts and types list the declarations by name, each the first with its name. Every
account layout has a type of its name, and where that is a struct both come from one declaration,
the first of its name among structs as well as among structs and enumerations, and agree field by
field. -/
theorem catalogs_agree (mode : FieldMode) (root : Node) :
    ListsFirst ((accountLayouts root).map (·.name)) ((structsOf root).map itemName) ∧
    ListsFirst ((typeEntries mode root).map (·.name)) ((structsAndEnumsOf root).map itemName) ∧
    (∀ layout ∈ accountLayouts root, ∃ entry ∈ typeEntries mode root,
      entry.name = layout.name) ∧
    ∀ layout ∈ accountLayouts root, ∀ entry ∈ typeEntries mode root, entry.name = layout.name →
      ∀ fields, entry.body = .struct fields →
        ∃ item, firstNamed? (structsOf root) layout.name = some item ∧
          firstNamed? (structsAndEnumsOf root) layout.name = some item ∧
          layout.fields = fieldsOf .account item ∧ fields = fieldsOf mode item ∧
          List.Forall₂ (fun accountField typeField =>
            ∃ type ∈ item.preorder, FieldsAgree mode type accountField typeField)
            layout.fields fields := by
  refine ⟨account_names root, type_names mode root, fun layout hlayout => ?_, ?_⟩
  · obtain ⟨hname, hstruct⟩ := ((account_names root).mem_iff layout.name).1
      (List.mem_map_of_mem hlayout)
    obtain ⟨item, hitem, hnamed⟩ := List.mem_map.1 hstruct
    obtain ⟨hbelow, hkind⟩ := List.mem_filter.1 hitem
    have hlisted : item ∈ structsAndEnumsOf root :=
      List.mem_filter.2 ⟨hbelow, by simpa using Or.inl (by simpa using hkind)⟩
    exact List.mem_map.1 (((type_names mode root).mem_iff layout.name).2
      ⟨hname, List.mem_map.2 ⟨item, hlisted, hnamed⟩⟩)
  · intro layout hlayout entry hentry hname fields hbody
    obtain ⟨_, item, hfirst, htype⟩ := mem_type_entries.1 hentry
    obtain ⟨_, item', hfirst', hlayout⟩ := mem_account_layouts.1 hlayout
    rw [hname] at hfirst
    rw [hbody] at htype
    -- The type is a struct, so no enumeration of its name comes first, and the first of both kinds is
    -- the first struct.
    have hkind : item.kind = .structItem := by
      rcases kind_of_first hfirst with hstruct | henum
      · exact hstruct
      · rw [typeBodyOf, if_pos henum] at htype
        nomatch htype
    have hstruct := first_struct_of_first hfirst hkind
    obtain rfl : item = item' := Option.some.inj (hstruct.symm.trans hfirst')
    have hfields : fields = fieldsOf mode item := by
      rw [typeBodyOf, if_neg (by simp [hkind])] at htype
      exact TypeBody.struct.inj htype
    refine ⟨item, hstruct, hfirst, hlayout, hfields, ?_⟩
    rw [hlayout, hfields]
    exact fields_agree mode item

end ProgramInterface
