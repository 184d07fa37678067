import ProgramInterface.Json.Value

/-!
# Type shapes

The shape of a type as an interface description shows it. Primitive and named types are written
alike, as their names; the others as an object with one member.
-/

namespace ProgramInterface

/-- The shape of a type. -/
inductive Shape where
  | primitive (name : Text)
  | named (name : Text)
  | vector (element : Shape)
  | tuple (elements : List Shape)
  | option (inner : Shape)
  deriving Inhabited

namespace Shape

mutual

/-- The value that a shape is written as. -/
def toJson : Shape → Json.Value
  | primitive name => .text name
  | named name => .text name
  | vector element => .record [("vec", element.toJson)]
  | tuple elements => .record [("tuple", .array (toJsons elements))]
  | option inner => .record [("option", inner.toJson)]

/-- The values that some shapes are written as. -/
def toJsons : List Shape → List Json.Value
  | [] => []
  | shape :: rest => shape.toJson :: toJsons rest

end

end Shape

end ProgramInterface
