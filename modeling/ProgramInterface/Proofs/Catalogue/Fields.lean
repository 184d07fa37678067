import Mathlib.Data.List.Infix
import ProgramInterface.Catalogue.Fields
import ProgramInterface.Proofs.Shape.Normalize
import ProgramInterface.Proofs.Syntax.Preorder

/-!
# The places of fields

Which fields a body has does not depend on the mode in which types are read. A body has a list of
places of fields, each a name and a type node, and the fields in a mode are what is read at these
places (`fields_of_eq`).
-/

namespace ProgramInterface

/-- A place in a source where a field is read: its name and its type node. -/
structure FieldPlace where
  name : Text
  type : Node

/-- The field that stands at a place. -/
def FieldPlace.read (mode : FieldMode) (place : FieldPlace) : Field :=
  ⟨place.name, place.type.shape mode⟩

/-- The place that a declaration names. -/
def declaredPlace? (declaration : Node) : Option FieldPlace :=
  match declaration.child? .name, declaration.child? .type with
  | some name, some type =>
    if type.kind.isFieldType then some ⟨name.content.lowerFirst, type⟩ else none
  | _, _ => none

/-- The place that a position names. -/
def positionedPlace? (index : Nat) (type : Node) : Option FieldPlace :=
  if type.kind.isFieldType then some ⟨"field" ++ Text.ofNat index, type⟩ else none

/-- The places of the fields of a body. -/
def placesOfBody (body : Node) : List FieldPlace :=
  match body.kind with
  | .fieldDeclarationList => (body.matching .field).filterMap declaredPlace?
  | .orderedFieldDeclarationList =>
    (body.childrenAs .type).zipIdx.filterMap fun (type, index) => positionedPlace? index type
  | _ => []

/-- The places of the fields of an item or variant. -/
def placesOf (item : Node) : List FieldPlace :=
  (item.child? .body).elim [] placesOfBody

/-! ## Fields are read at places -/

theorem declared_field_eq (mode : FieldMode) (declaration : Node) :
    declaredField? mode declaration = (declaredPlace? declaration).map (·.read mode) := by
  unfold declaredField? declaredPlace?
  cases declaration.child? .name with
  | none => rfl
  | some name =>
      cases declaration.child? .type with
      | none => rfl
      | some type =>
          dsimp only
          split <;> rfl

theorem positioned_field_eq (mode : FieldMode) (index : Nat) (type : Node) :
    positionedField? mode index type = (positionedPlace? index type).map (·.read mode) := by
  unfold positionedField? positionedPlace?
  split <;> rfl

theorem fields_of_body_eq (mode : FieldMode) (body : Node) :
    fieldsOfBody mode body = (placesOfBody body).map (·.read mode) := by
  unfold fieldsOfBody placesOfBody
  generalize body.kind = kind
  split
  · show (body.matching .field).filterMap (declaredField? mode) =
      ((body.matching .field).filterMap declaredPlace?).map (·.read mode)
    rw [List.map_filterMap, funext (declared_field_eq mode)]
  · show ((body.childrenAs .type).zipIdx.map fun (type, index) =>
        positionedField? mode index type).filterMap id =
      ((body.childrenAs .type).zipIdx.filterMap fun (type, index) =>
        positionedPlace? index type).map (·.read mode)
    rw [List.filterMap_map, List.map_filterMap]
    exact congrArg (List.filterMap · _) (funext fun (type, index) =>
      positioned_field_eq mode index type)
  · simp [*]

/-- The fields of an item in any mode are read at the same places. -/
theorem fields_of_eq (mode : FieldMode) (item : Node) :
    fieldsOf mode item = (placesOf item).map (·.read mode) := by
  unfold fieldsOf placesOf
  cases item.child? .body with
  | none => rfl
  | some body => exact fields_of_body_eq mode body

/-! ## Where the types of fields stand -/

theorem declared_place_type {declaration : Node} {place : FieldPlace}
    (h : declaredPlace? declaration = some place) : place.type ∈ declaration.preorder := by
  unfold declaredPlace? at h
  split at h
  · split at h
    · cases h
      exact Node.mem_preorder_child ‹_›
    · cases h
  · cases h

theorem positioned_place_type {index : Nat} {type : Node} {place : FieldPlace}
    (h : positionedPlace? index type = some place) : place.type = type := by
  unfold positionedPlace? at h
  split at h
  · cases h
    rfl
  · cases h

/-- The type of a field stands in the item that has the field. -/
theorem mem_places_of {item : Node} {place : FieldPlace} (h : place ∈ placesOf item) :
    place.type ∈ item.preorder := by
  unfold placesOf at h
  cases hbody : item.child? .body with
  | none => simp [hbody] at h
  | some body =>
      rw [hbody, Option.elim_some] at h
      refine Node.mem_preorder_trans ?_ (Node.mem_preorder_child hbody)
      unfold placesOfBody at h
      split at h
      · obtain ⟨declaration, hdeclaration, hplace⟩ := List.mem_filterMap.1 h
        rw [Node.matching_eq_filter_preorder] at hdeclaration
        exact Node.mem_preorder_trans (declared_place_type hplace)
          (List.mem_filter.1 hdeclaration).1
      · obtain ⟨⟨type, index⟩, htype, hplace⟩ := List.mem_filterMap.1 h
        rw [positioned_place_type hplace]
        have hchild := (List.mem_filter.1 (List.fst_mem_of_mem_zipIdx htype)).1
        exact Node.mem_preorder.2 (.inr ⟨type, hchild, Node.mem_preorder_self type⟩)
      · cases h

end ProgramInterface
