import ProgramInterface.Document
import ProgramInterface.Shape.Normalize
import ProgramInterface.Syntax.Query
import ProgramInterface.Text.Case

/-!
# Fields of bodies

The fields of a struct or variant. Named fields keep their names, with the first letter in lower
case; the others are named by position. A field of a type that no description shows is left out but
counts as a position.
-/

namespace ProgramInterface

/-- The field that a declaration stands for. -/
def declaredField? (mode : FieldMode) (declaration : Node) : Option Field :=
  match declaration.child? .name, declaration.child? .type with
  | some name, some type =>
    if type.kind.isFieldType then some ⟨name.content.lowerFirst, type.shape mode⟩ else none
  | _, _ => none

/-- The field that the type at a position stands for. -/
def positionedField? (mode : FieldMode) (index : Nat) (type : Node) : Option Field :=
  if type.kind.isFieldType then some ⟨"field" ++ Text.ofNat index, type.shape mode⟩ else none

/-- The fields of a body. -/
def fieldsOfBody (mode : FieldMode) (body : Node) : List Field :=
  match body.kind with
  | .fieldDeclarationList => (body.matching .field).filterMap (declaredField? mode)
  | .orderedFieldDeclarationList =>
    ((body.childrenAs .type).zipIdx.map fun (type, index) =>
      positionedField? mode index type).filterMap id
  | _ => []

/-- The fields of the body of an item or variant, if it has one. -/
def fieldsOf (mode : FieldMode) (item : Node) : List Field :=
  (item.child? .body).elim [] (fieldsOfBody mode)

end ProgramInterface
