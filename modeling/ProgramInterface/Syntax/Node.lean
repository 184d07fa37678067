/-!
# Syntax trees

A syntax tree has one node for every part of a source that later stages look at: items, bodies,
fields, types, macro invocations, integer literals, attributes and comments. Expressions and patterns
are kept flat: their operands and operators are the children of one node, in source order. Words,
signs and brackets are nodes too, but unnamed ones.
-/

namespace ProgramInterface

/-- The part that a node plays in its parent. -/
inductive Role where
  | name
  | body
  | type
  | parameters
  | macroPath
  | typeArguments
  deriving DecidableEq, Inhabited

/-- What a node is. -/
inductive Kind where
  | sourceFile
  | functionItem
  | functionSignature
  | modItem
  | structItem
  | unionItem
  | enumItem
  | implItem
  | traitItem
  | otherItem
  | useDeclaration
  | letDeclaration
  | expressionStatement
  | emptyStatement
  | macroDefinition
  | macroInvocation
  | attributeItem
  | innerAttributeItem
  | attributeBody
  | visibility
  | typeParameters
  | whereClause
  | traitBounds
  | block
  | declarationList
  | parameters
  | parameter
  | fieldDeclarationList
  | orderedFieldDeclarationList
  | fieldDeclaration
  | enumVariantList
  | enumVariant
  | identifier
  | typeIdentifier
  | fieldIdentifier
  | scopedIdentifier
  | scopedTypeIdentifier
  | primitiveType
  | genericType
  | tupleType
  | unitType
  | arrayType
  | referenceType
  | pointerType
  | functionType
  | dynamicType
  | abstractType
  | neverType
  | boundedType
  | removedBound
  | bracketedType
  | typeArguments
  | typeBinding
  | lifetime
  | integerLiteral
  | literal
  | tokenTree
  | expression
  | arguments
  | pattern
  | lineComment
  | blockComment
  | token
  | error
  | missing
  deriving DecidableEq, Inhabited

/-- The name of a kind. -/
def Kind.name : Kind → String
  | sourceFile => "source_file"
  | functionItem => "function_item"
  | functionSignature => "function_signature_item"
  | modItem => "mod_item"
  | structItem => "struct_item"
  | unionItem => "union_item"
  | enumItem => "enum_item"
  | implItem => "impl_item"
  | traitItem => "trait_item"
  | otherItem => "item"
  | useDeclaration => "use_declaration"
  | letDeclaration => "let_declaration"
  | expressionStatement => "expression_statement"
  | emptyStatement => "empty_statement"
  | macroDefinition => "macro_definition"
  | macroInvocation => "macro_invocation"
  | attributeItem => "attribute_item"
  | innerAttributeItem => "inner_attribute_item"
  | attributeBody => "attribute"
  | visibility => "visibility_modifier"
  | typeParameters => "type_parameters"
  | whereClause => "where_clause"
  | traitBounds => "trait_bounds"
  | block => "block"
  | declarationList => "declaration_list"
  | parameters => "parameters"
  | parameter => "parameter"
  | fieldDeclarationList => "field_declaration_list"
  | orderedFieldDeclarationList => "ordered_field_declaration_list"
  | fieldDeclaration => "field_declaration"
  | enumVariantList => "enum_variant_list"
  | enumVariant => "enum_variant"
  | identifier => "identifier"
  | typeIdentifier => "type_identifier"
  | fieldIdentifier => "field_identifier"
  | scopedIdentifier => "scoped_identifier"
  | scopedTypeIdentifier => "scoped_type_identifier"
  | primitiveType => "primitive_type"
  | genericType => "generic_type"
  | tupleType => "tuple_type"
  | unitType => "unit_type"
  | arrayType => "array_type"
  | referenceType => "reference_type"
  | pointerType => "pointer_type"
  | functionType => "function_type"
  | dynamicType => "dynamic_type"
  | abstractType => "abstract_type"
  | neverType => "never_type"
  | boundedType => "bounded_type"
  | removedBound => "removed_trait_bound"
  | bracketedType => "bracketed_type"
  | typeArguments => "type_arguments"
  | typeBinding => "type_binding"
  | lifetime => "lifetime"
  | integerLiteral => "integer_literal"
  | literal => "literal"
  | tokenTree => "token_tree"
  | expression => "expression"
  | arguments => "arguments"
  | pattern => "pattern"
  | lineComment => "line_comment"
  | blockComment => "block_comment"
  | token => "token"
  | error => "ERROR"
  | missing => "MISSING"

/-- Whether a kind is one of the two kinds of comments. -/
def Kind.isComment (kind : Kind) : Bool :=
  kind = .lineComment || kind = .blockComment

/-- A node of a syntax tree: its kind, whether it is a named node, the role it plays in its parent,
the byte offsets of its first byte and of the byte behind its last one, its text, and its
children. -/
structure Node where
  kind : Kind
  isNamed : Bool
  role : Option Role
  start : Nat
  stop : Nat
  text : String
  children : List Node
  deriving Inhabited

namespace Node

/-- The first child that plays a given role. -/
def child? (node : Node) (role : Role) : Option Node :=
  node.children.find? (·.role = some role)

/-- The children that play a given role. -/
def childrenAs (node : Node) (role : Role) : List Node :=
  node.children.filter (·.role = some role)

/-- The named children. -/
def namedChildren (node : Node) : List Node :=
  node.children.filter (·.isNamed)

/-- The text of the child that plays a given role; without such a child it is empty. -/
def childText (node : Node) (role : Role) : String :=
  (node.child? role).elim "" (·.text)

mutual

/-- The number of nodes of a tree. -/
def size : Node → Nat
  | ⟨_, _, _, _, _, _, children⟩ => 1 + sizes children

/-- The number of nodes of some trees. -/
def sizes : List Node → Nat
  | [] => 0
  | node :: rest => node.size + sizes rest

end

theorem size_eq (node : Node) : node.size = 1 + sizes node.children := by
  cases node
  simp [size]

theorem sizes_append (front back : List Node) :
    sizes (front ++ back) = sizes front + sizes back := by
  induction front with
  | nil => simp [sizes]
  | cons node rest ih => simp [sizes, ih, Nat.add_assoc]

end Node

end ProgramInterface
