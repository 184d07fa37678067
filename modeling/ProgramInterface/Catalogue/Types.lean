import ProgramInterface.Catalogue.Fields

/-!
# Account layouts and types

Every struct is an account layout, and every struct and enumeration is a type. Of several
declarations with one name the first counts, and one without a name does not.
-/

namespace ProgramInterface

/-- The items with a name, each with its name; of several with one name only the first, and none whose
name is among those `seen`. -/
def firstByName (seen : List Text) : List Node → List (Text × Node)
  | [] => []
  | item :: rest =>
    let name := Text.ofString (item.childText .name)
    if name.isEmpty || seen.contains name then firstByName seen rest
    else (name, item) :: firstByName (name :: seen) rest

/-- The account layouts of a program. -/
def accountLayouts (root : Node) : List AccountLayout :=
  (firstByName [] (root.matching .struct)).map fun (name, item) =>
    ⟨name, fieldsOf .account item⟩

/-- A variant of an enumeration. -/
def variantOf (mode : FieldMode) (variant : Node) : Variant :=
  ⟨Text.ofString (variant.childText .name), (variant.child? .body).map (fieldsOfBody mode)⟩

/-- The variants in the body of an enumeration. -/
def variantsOf (mode : FieldMode) (item : Node) : List Variant :=
  (item.child? .body).elim [] fun body =>
    (body.namedChildren.filter (·.kind = .enumVariant)).map (variantOf mode)

/-- What the type of an item is made of. -/
def typeBodyOf (mode : FieldMode) (item : Node) : TypeBody :=
  if item.kind = .enumItem then .enum (variantsOf mode item) else .struct (fieldsOf mode item)

/-- The types of a program. -/
def typeEntries (mode : FieldMode) (root : Node) : List TypeEntry :=
  (firstByName [] (root.matching .structOrEnum)).map fun (name, item) =>
    ⟨name, typeBodyOf mode item⟩

end ProgramInterface
