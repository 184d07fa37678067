import ProgramInterface.Shape.Basic
import ProgramInterface.Syntax.Walk

/-!
# Shapes of type nodes

The type nodes of a syntax tree are read in one of three modes. In account mode a type is primitive
or stands as its text. In field mode a type whose text contains `Vec<` is a vector, whose element
comes from the first generic type called `Vec` at or below it. In structural mode tuples and generic
types called `Option` are taken apart as well.
-/

namespace ProgramInterface

/-- How the types of fields are read. -/
inductive FieldMode where
  | account
  | field
  | structural
  deriving DecidableEq

namespace FieldMode

/-- All modes. -/
def all : List FieldMode :=
  [account, field, structural]

/-- The word for a mode. -/
def word : FieldMode → String
  | account => "account"
  | field => "field"
  | structural => "structural"

/-- The mode for a word. -/
def ofWord? (w : String) : Option FieldMode :=
  all.find? (·.word = w)

end FieldMode

/-- The kinds of types that a field can have; fields of other types are left out. -/
def Kind.isFieldType : Kind → Bool
  | primitiveType | typeIdentifier | scopedTypeIdentifier | genericType | tupleType | arrayType =>
    true
  | _ => false

/-- The kinds of types that can be the element of a vector. -/
def Kind.isElementType : Kind → Bool
  | primitiveType | typeIdentifier | scopedTypeIdentifier | genericType => true
  | _ => false

/-- Whether a node among types is one itself: lifetimes and comments are not. -/
def Kind.isArgument (kind : Kind) : Bool :=
  kind ≠ .lifetime && !kind.isComment

namespace Node

/-- The types among the named children of a node. -/
def argumentNodes (node : Node) : List Node :=
  node.namedChildren.filter (·.kind.isArgument)

/-- The type arguments of a generic type. -/
def typeArguments (generic : Node) : List Node :=
  (generic.child? .typeArguments).elim [] argumentNodes

/-- Whether a node is a generic type whose name ends in a given way. -/
def isGeneric (ending : String) (node : Node) : Bool :=
  node.kind = .genericType && ending.toList.isSuffixOf (node.childText .type).toList

/-- The element of the first vector at or below a node: its first argument that can be one. -/
def vectorElement? (node : Node) : Option Node :=
  (node.walk.find? (isGeneric "Vec")).bind fun generic =>
    generic.typeArguments.find? (·.kind.isElementType)

/-- Whether the text of a node contains `Vec<`. -/
def mentionsVector (node : Node) : Bool :=
  Text.occursIn "Vec<".toList node.text.toList

theorem size_lt_of_mem_argumentNodes {node argument : Node}
    (h : argument ∈ node.argumentNodes) : argument.size < node.size := by
  apply size_lt_of_mem_children
  simp only [argumentNodes, namedChildren, List.mem_filter] at h
  exact h.1.1

theorem size_lt_of_mem_typeArguments {node argument : Node}
    (h : argument ∈ node.typeArguments) : argument.size < node.size := by
  unfold typeArguments at h
  cases hargs : node.child? .typeArguments with
  | none => simp [hargs] at h
  | some arguments =>
    simp only [hargs, Option.elim_some] at h
    have hinner := size_lt_of_mem_argumentNodes h
    have houter := size_lt_of_mem_children (List.mem_of_find?_eq_some hargs)
    omega

theorem size_lt_of_vectorElement? {node element : Node} (h : node.vectorElement? = some element) :
    element.size < node.size := by
  obtain ⟨generic, hgeneric, helement⟩ := Option.bind_eq_some_iff.1 h
  have houter := size_le_of_mem_walk (List.mem_of_find?_eq_some hgeneric)
  have hinner := size_lt_of_mem_typeArguments (List.mem_of_find?_eq_some helement)
  omega

/-- The text of a node. -/
def content (node : Node) : Text :=
  Text.ofString node.text

/-- The element of a vector whose element cannot be found. -/
def defaultElement : Shape :=
  .primitive "u8"

/-- The shape of a type node. -/
def shape (mode : FieldMode) (node : Node) : Shape :=
  let vector : Shape :=
    if node.mentionsVector then
      match h : node.vectorElement? with
      | some element =>
        have := size_lt_of_vectorElement? h
        .vector (shape mode element)
      | none => .vector defaultElement
    else .named node.content
  if node.kind = .primitiveType then .primitive node.content
  else
    match mode with
    | .account => .named node.content
    | .field => vector
    | .structural =>
      if node.kind = .tupleType then
        .tuple <| node.argumentNodes.attach.map fun ⟨element, h⟩ =>
          have := size_lt_of_mem_argumentNodes h
          shape .structural element
      else if node.isGeneric "Option" then
        match h : node.typeArguments with
        | [] => vector
        | argument :: rest =>
          have : argument.size < node.size :=
            size_lt_of_mem_typeArguments (by simp [h])
          .option (shape .structural argument)
      else vector
termination_by node.size

end Node

end ProgramInterface
