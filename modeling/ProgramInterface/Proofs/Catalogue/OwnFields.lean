import Mathlib.Data.List.Forall2
import Mathlib.Data.List.Perm.Basic
import ProgramInterface.Grammar.SourceFile
import ProgramInterface.Proofs.Catalogue.Fields

/-!
# The fields that a body declares itself

A body in parentheses has one field for each of its elements whose type a description shows. A body in
braces has one for each such declaration among its members, but behind the field of a member stand
those of all declarations deeper inside it, such as the fields of a struct in the length of an array
(`fields_of_braces`). So a body in braces has exactly its own fields if and only if nothing inside its
members declares any (`own_fields`).
-/

namespace ProgramInterface

/-! ## Declarations -/

/-- The field that a node declares, if it is a declaration of one that a description shows. -/
def Node.fieldDeclared? (mode : FieldMode) (node : Node) : Option Field :=
  if node.kind = .fieldDeclaration then declaredField? mode node else none

/-- The fields declared below a node, the node itself left out. -/
def Node.fieldsInside (mode : FieldMode) (node : Node) : List Field :=
  (Node.preorders node.children).filterMap (Node.fieldDeclared? mode)

/-- Whether a node declares a field that a description shows: it has a name and a type of a kind that
fields can have. -/
def Node.declaresField (node : Node) : Bool :=
  node.kind = .fieldDeclaration && (node.child? .name).isSome &&
    (node.child? .type).any (·.kind.isFieldType)

/-- The fields that the members of a body declare. -/
def Node.ownDeclarations (body : Node) : List Node :=
  body.children.filter (·.declaresField)

/-- The types of a body in parentheses that a description shows, each with its position among all
elements. -/
def Node.ownElements (body : Node) : List (Node × Nat) :=
  (body.childrenAs .type).zipIdx.filter (·.1.kind.isFieldType)

/-- Whether a field is that of a declaration: it has the declared name with its first letter in lower
case, and the shape of the declared type. -/
structure DeclaredBy (mode : FieldMode) (declaration : Node) (field : Field) : Prop where
  name : ∃ name, declaration.child? .name = some name ∧ field.name = name.content.lowerFirst
  type : ∃ type, declaration.child? .type = some type ∧ field.type = type.shape mode

/-- Whether a field is that of an element: it is named by the position of the element and has the
shape of its type. -/
structure StandsAt (mode : FieldMode) (element : Node × Nat) (field : Field) : Prop where
  name : field.name = "field" ++ Text.ofNat element.2
  type : field.type = element.1.shape mode

variable {mode : FieldMode}

/-- A declaration that a description shows has its field, and any other node has none. -/
theorem field_declared_cases (mode : FieldMode) (node : Node) :
    (node.declaresField = true ∧ ∃ field, node.fieldDeclared? mode = some field ∧
      DeclaredBy mode node field) ∨
    (node.declaresField = false ∧ node.fieldDeclared? mode = none) := by
  unfold Node.declaresField Node.fieldDeclared? declaredField?
  by_cases hkind : node.kind = .fieldDeclaration
  · rw [if_pos hkind]
    cases hname : node.child? .name with
    | none => exact .inr ⟨by simp, rfl⟩
    | some name =>
        cases htype : node.child? .type with
        | none => exact .inr ⟨by simp, rfl⟩
        | some type =>
            by_cases hfield : type.kind.isFieldType = true
            · refine .inl ⟨by simp [hkind, hfield], _, if_pos hfield, ⟨name, hname, rfl⟩, ?_⟩
              exact ⟨type, htype, rfl⟩
            · exact .inr ⟨by simp [hfield], if_neg hfield⟩
  · exact .inr ⟨by simp [hkind], if_neg hkind⟩

theorem field_declared_eq_none {node : Node} :
    node.fieldDeclared? mode = none ↔ node.declaresField = false := by
  rcases field_declared_cases mode node with ⟨hdeclares, field, hfield, _⟩ | ⟨hdeclares, hnone⟩
  · simp [hdeclares, hfield]
  · simp [hdeclares, hnone]

/-- The fields of some declarations are those of the ones that a description shows, in order. -/
theorem fields_declared_by (mode : FieldMode) (nodes : List Node) :
    List.Forall₂ (DeclaredBy mode) (nodes.filter (·.declaresField))
      (nodes.filterMap (Node.fieldDeclared? mode)) := by
  induction nodes with
  | nil => exact .nil
  | cons node rest ih =>
      rcases field_declared_cases mode node with
        ⟨hdeclares, field, hfield, hdeclared⟩ | ⟨hdeclares, hnone⟩
      · rw [List.filter_cons_of_pos hdeclares, List.filterMap_cons_some hfield]
        exact .cons hdeclared ih
      · rw [List.filter_cons_of_neg (by simp [hdeclares]), List.filterMap_cons_none hnone]
        exact ih

theorem Node.fields_inside_eq_nil {node : Node} : node.fieldsInside mode = [] ↔
    ∀ inner ∈ Node.preorders node.children, inner.declaresField = false := by
  simp only [Node.fieldsInside, List.filterMap_eq_nil_iff, field_declared_eq_none]

/-! ## Bodies in braces -/

theorem preorders_eq_flat_map (nodes : List Node) :
    Node.preorders nodes = nodes.flatMap Node.preorder := by
  induction nodes with
  | nil => rfl
  | cons node rest ih => exact congrArg (node.preorder ++ ·) ih

/-- A body in braces has the field of each member followed by those that are declared inside it. -/
theorem fields_of_braces (mode : FieldMode) {body : Node}
    (hkind : body.kind = .fieldDeclarationList) :
    fieldsOfBody mode body = body.children.flatMap fun member =>
      (member.fieldDeclared? mode).toList ++ member.fieldsInside mode := by
  have hmatch : ∀ node, (if QueryKind.field.isMatch node then declaredField? mode node else none) =
      node.fieldDeclared? mode := by
    intro node
    simp [QueryKind.isMatch, QueryKind.nodeKinds, Node.fieldDeclared?]
  have hbody : body.fieldDeclared? mode = none := if_neg (by simp [hkind])
  have hmember : ∀ member : Node, member.preorder.filterMap (Node.fieldDeclared? mode) =
      (member.fieldDeclared? mode).toList ++ member.fieldsInside mode := by
    intro member
    rw [Node.preorder_eq, Node.fieldsInside]
    cases hfield : member.fieldDeclared? mode with
    | none => rw [List.filterMap_cons_none hfield]; rfl
    | some field => rw [List.filterMap_cons_some hfield]; rfl
  calc fieldsOfBody mode body
      = (body.matching .field).filterMap (declaredField? mode) := by
        unfold fieldsOfBody
        rw [hkind]
    _ = body.preorder.filterMap (Node.fieldDeclared? mode) := by
        rw [Node.matching_eq_filter_preorder, List.filterMap_filter, funext hmatch]
    _ = (body.children.flatMap Node.preorder).filterMap (Node.fieldDeclared? mode) := by
        rw [Node.preorder_eq, List.filterMap_cons_none hbody, preorders_eq_flat_map]
    _ = _ := by
        rw [List.filterMap_flatMap, funext hmember]

/-- A body in braces has exactly its own fields if and only if nothing inside its members declares a
field. -/
theorem fields_of_braces_iff (mode : FieldMode) {body : Node}
    (hkind : body.kind = .fieldDeclarationList) :
    List.Forall₂ (DeclaredBy mode) body.ownDeclarations (fieldsOfBody mode body) ↔
      ∀ member ∈ body.children, ∀ inner ∈ Node.preorders member.children,
        inner.declaresField = false := by
  have hown := fields_declared_by mode body.children
  rw [List.filterMap_eq_flatMap_toList] at hown
  rw [fields_of_braces mode hkind]
  constructor
  · intro h member hmember
    -- As many fields as declarations leave none for what is inside the members.
    have hlength := (List.flatMap_append_perm body.children
      (fun member => (member.fieldDeclared? mode).toList) (Node.fieldsInside mode)).length_eq
    rw [← h.length_eq, List.length_append, ← hown.length_eq] at hlength
    have hnil : body.children.flatMap (Node.fieldsInside mode) = [] :=
      List.eq_nil_of_length_eq_zero (Nat.add_left_cancel hlength)
    exact Node.fields_inside_eq_nil.1 (List.flatMap_eq_nil_iff.1 hnil member hmember)
  · intro h
    rw [List.flatMap_congr fun member hmember => by
      rw [Node.fields_inside_eq_nil.2 (h member hmember), List.append_nil]]
    exact hown

/-! ## Bodies in parentheses -/

theorem fields_of_parentheses (mode : FieldMode) {body : Node}
    (hkind : body.kind = .orderedFieldDeclarationList) :
    List.Forall₂ (StandsAt mode) body.ownElements (fieldsOfBody mode body) := by
  have helements : ∀ elements : List (Node × Nat),
      List.Forall₂ (StandsAt mode) (elements.filter (·.1.kind.isFieldType))
        ((elements.map fun element =>
          positionedField? mode element.2 element.1).filterMap id) := by
    intro elements
    induction elements with
    | nil => exact .nil
    | cons element rest ih =>
        obtain ⟨type, index⟩ := element
        rw [List.map_cons, List.filter_cons]
        by_cases hfield : type.kind.isFieldType = true
        · have hread : id (positionedField? mode index type) = some _ := if_pos hfield
          rw [if_pos hfield, List.filterMap_cons_some hread]
          exact .cons ⟨rfl, rfl⟩ ih
        · have hread : id (positionedField? mode index type) = none := if_neg hfield
          rw [if_neg hfield, List.filterMap_cons_none hread]
          exact ih
  unfold fieldsOfBody
  rw [hkind]
  exact helements _

/-! ## All bodies -/

/-- The fields of a body in parentheses are those of its elements. The fields of a body in braces are
those of its members, each followed by what is declared inside it, and so exactly its own if and only
if nothing inside its members declares a field. -/
theorem own_fields (mode : FieldMode) (body : Node) :
    (body.kind = .orderedFieldDeclarationList →
      List.Forall₂ (StandsAt mode) body.ownElements (fieldsOfBody mode body)) ∧
    (body.kind = .fieldDeclarationList →
      fieldsOfBody mode body = body.children.flatMap (fun member =>
        (member.fieldDeclared? mode).toList ++ member.fieldsInside mode) ∧
      (List.Forall₂ (DeclaredBy mode) body.ownDeclarations (fieldsOfBody mode body) ↔
        ∀ member ∈ body.children, ∀ inner ∈ Node.preorders member.children,
          inner.declaresField = false)) :=
  ⟨fields_of_parentheses mode, fun hkind =>
    ⟨fields_of_braces mode hkind, fields_of_braces_iff mode hkind⟩⟩

/-- A struct in braces and a variant in parentheses, each with a reference among its fields, have all
fields of their own that a description shows. -/
theorem own_fields_shown :
    let root := Grammar.sourceFile
      "struct A\x7bOne:[u8;\x7b1\x7d],r:&u8,two:B\x7d enum C\x7bD(&u8,#[e]Vec<u8>)\x7d"
    (∃ body ∈ root.preorder, body.kind = .fieldDeclarationList ∧
      body.ownDeclarations.length = 2 ∧
      List.Forall₂ (DeclaredBy .field) body.ownDeclarations (fieldsOfBody .field body)) ∧
    ∃ body ∈ root.preorder, body.kind = .orderedFieldDeclarationList ∧
      body.ownElements.map (·.2) = [1] ∧
      List.Forall₂ (StandsAt .field) body.ownElements (fieldsOfBody .field body) := by
  intro root
  have hbraces : ∃ body ∈ root.preorder, body.kind = .fieldDeclarationList ∧
      body.ownDeclarations.length = 2 ∧ ∀ member ∈ body.children,
        ∀ inner ∈ Node.preorders member.children, inner.declaresField = false := by
    decide +kernel
  have hparentheses : ∃ body ∈ root.preorder, body.kind = .orderedFieldDeclarationList ∧
      body.ownElements.map (·.2) = [1] := by
    decide +kernel
  obtain ⟨body, hbody, hkind, hlength, hinside⟩ := hbraces
  obtain ⟨body', hbody', hkind', hplaces⟩ := hparentheses
  exact ⟨⟨body, hbody, hkind, hlength, ((own_fields .field body).2 hkind).2.2 hinside⟩,
    body', hbody', hkind', hplaces, (own_fields .field body').1 hkind'⟩

/-- The field of a struct in the length of an array is listed among those of the struct around it. -/
theorem inner_field_listed :
    ∃ item ∈ (Grammar.sourceFile
        "struct A\x7bx:[u8;\x7bstruct B\x7by:u8\x7d1\x7d]\x7d").preorder,
      item.childText .name = "A" ∧ ∃ body, item.child? .body = some body ∧
        body.kind = .fieldDeclarationList ∧ body.ownDeclarations.length = 1 ∧
        (fieldsOfBody .field body).map (·.name) = [Text.ofString "x", Text.ofString "y"] := by
  have hlisted : ∃ item ∈ (Grammar.sourceFile
        "struct A\x7bx:[u8;\x7bstruct B\x7by:u8\x7d1\x7d]\x7d").preorder,
      item.childText .name = "A" ∧ (item.child? .body).any (fun body =>
        body.kind = .fieldDeclarationList ∧ body.ownDeclarations.length = 1 ∧
        (fieldsOfBody .field body).map (·.name) = [Text.ofString "x", Text.ofString "y"]) := by
    decide +kernel
  obtain ⟨item, hitem, hname, hany⟩ := hlisted
  obtain ⟨body, hbody, hfields⟩ := (Option.any_eq_true _ _).1 hany
  exact ⟨item, hitem, hname, body, hbody, of_decide_eq_true hfields⟩

end ProgramInterface
