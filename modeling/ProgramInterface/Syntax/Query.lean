import ProgramInterface.Syntax.Walk

/-!
# Structural queries

A query says which kinds of nodes match and which of their children are captured, and under which
name. The matches of a query in a tree stand in source order, each node before those below it.
-/

namespace ProgramInterface

/-- The field name of a role in the grammar. -/
def Role.fieldName : Role → String
  | name => "name"
  | body => "body"
  | type => "type"
  | parameters => "parameters"
  | macroPath => "macro"
  | typeArguments => "type_arguments"

/-- The names under which children are captured. -/
inductive Capture where
  | name
  | body
  | type
  | parameters
  deriving DecidableEq

/-- The word for a capture. -/
def Capture.word : Capture → String
  | name => "name"
  | body => "body"
  | type => "type"
  | parameters => "parameters"

/-- The queries that there are. -/
inductive QueryKind where
  | function
  | module
  | struct
  | enum
  | structOrEnum
  | field
  | macroCall
  | integer
  deriving DecidableEq

namespace QueryKind

/-- All queries. -/
def all : List QueryKind :=
  [function, module, struct, enum, structOrEnum, field, macroCall, integer]

/-- The word for a query. -/
def word : QueryKind → String
  | function => "function"
  | module => "module"
  | struct => "struct"
  | enum => "enum"
  | structOrEnum => "struct_or_enum"
  | field => "field"
  | macroCall => "macro"
  | integer => "integer"

/-- The query for a word. -/
def ofWord? (w : String) : Option QueryKind :=
  all.find? (·.word = w)

/-- The kinds of nodes that a query matches. -/
def nodeKinds : QueryKind → List Kind
  | function => [.functionItem]
  | module => [.modItem]
  | struct => [.structItem]
  | enum => [.enumItem]
  | structOrEnum => [.structItem, .enumItem]
  | field => [.fieldDeclaration]
  | macroCall => [.macroInvocation]
  | integer => [.integerLiteral]

/-- The roles that a query captures, each with the name it is captured under. -/
def captures : QueryKind → List (Capture × Role)
  | function => [(.name, .name), (.parameters, .parameters), (.body, .body)]
  | module | struct | enum | structOrEnum => [(.name, .name), (.body, .body)]
  | field => [(.name, .name), (.type, .type)]
  | macroCall => [(.name, .macroPath)]
  | integer => []

/-- Whether a query matches a node. -/
def isMatch (kind : QueryKind) (node : Node) : Bool :=
  kind.nodeKinds.contains node.kind

/-- The children of a node that a query captures. -/
def captured (kind : QueryKind) (node : Node) : List (Capture × Node) :=
  kind.captures.filterMap fun (capture, role) => (node.child? role).map (capture, ·)

end QueryKind

/-- The nodes at or below a node that a query matches. -/
def Node.matching (root : Node) (kind : QueryKind) : List Node :=
  root.walk.filter kind.isMatch

/-- The places at or below a place whose nodes a query matches. -/
def Placed.matching (root : Placed) (kind : QueryKind) : List Placed :=
  root.walk.filter fun placed => kind.isMatch placed.node

end ProgramInterface
