import ProgramInterface.Syntax.Node

/-!
# Walks through a syntax tree

`Node.preorder` lists a node and everything below it, each node before its children and the children
from left to right. `Node.walk` lists the same nodes with a stack of subtrees still to visit.
-/

namespace ProgramInterface

namespace Node

mutual

/-- A node and its descendants in pre-order. -/
def preorder : Node → List Node
  | node@⟨_, _, _, _, _, _, children⟩ => node :: preorders children

/-- Some nodes and their descendants in pre-order. -/
def preorders : List Node → List Node
  | [] => []
  | node :: rest => node.preorder ++ preorders rest

end

/-- The nodes visited, the last one first, followed by everything on a stack of subtrees. -/
def walkFrom (visited : List Node) : List Node → List Node
  | [] => visited.reverse
  | node :: stack => walkFrom (node :: visited) (node.children ++ stack)
termination_by stack => sizes stack
decreasing_by
  simp only [sizes, sizes_append, size_eq]
  omega

/-- A node and its descendants, visited with a stack. -/
def walk (node : Node) : List Node :=
  walkFrom [] [node]

theorem size_le_sizes {node : Node} {nodes : List Node} (h : node ∈ nodes) :
    node.size ≤ sizes nodes := by
  induction nodes with
  | nil => simp at h
  | cons first rest ih =>
    simp only [sizes]
    rcases List.mem_cons.1 h with rfl | hrest
    · omega
    · have := ih hrest
      omega

theorem size_lt_of_mem_children {node child : Node} (h : child ∈ node.children) :
    child.size < node.size := by
  have := size_le_sizes h
  rw [size_eq node]
  omega

theorem size_le_of_mem_walkFrom {node : Node} (visited stack : List Node)
    (h : node ∈ walkFrom visited stack) : node ∈ visited ∨ node.size ≤ sizes stack := by
  fun_induction walkFrom visited stack with
  | case1 visited => exact .inl (List.mem_reverse.1 h)
  | case2 visited next stack ih =>
    rcases ih h with hvisited | hsize
    · rcases List.mem_cons.1 hvisited with rfl | hold
      · right
        simp only [sizes]
        omega
      · exact .inl hold
    · right
      simp only [sizes, sizes_append, size_eq next] at hsize ⊢
      omega

/-- No node of a walk is larger than the node where it began. -/
theorem size_le_of_mem_walk {node root : Node} (h : node ∈ root.walk) : node.size ≤ root.size := by
  rcases size_le_of_mem_walkFrom [] [root] h with hnil | hsize
  · simp at hnil
  · simpa [sizes] using hsize

/-- The attribute nodes among some siblings in front of an item, nearest first; the search ends at
the first sibling that is neither an attribute nor a comment. -/
def attributesAmong : List Node → List Node
  | [] => []
  | sibling :: rest =>
    if sibling.kind = .attributeItem then sibling :: attributesAmong rest
    else if sibling.kind.isComment then attributesAmong rest
    else []

end Node

/-- A node with its place in the tree: the named siblings in front of it, nearest first, and the
nodes above it, nearest first. -/
structure Placed where
  node : Node
  before : List Node
  above : List Node
  deriving Inhabited

namespace Placed

/-- The attributes written directly above a node, nearest first. -/
def attributes (placed : Placed) : List Node :=
  Node.attributesAmong placed.before

/-- The nearest node of a kind above a node. -/
def enclosing? (placed : Placed) (kind : Kind) : Option Node :=
  placed.above.find? (·.kind = kind)

/-- The root of a tree. -/
def ofRoot (root : Node) : Placed :=
  ⟨root, [], []⟩

/-- Some siblings at their places, the last one first: `before` holds the named siblings read so far,
nearest first. -/
def siblings (above : List Node) (before : List Node) (placed : List Placed) :
    List Node → List Placed
  | [] => placed.reverse
  | node :: rest =>
    let before' := if node.isNamed then node :: before else before
    siblings above before' (⟨node, before, above⟩ :: placed) rest

/-- The children of a node at their places. -/
def children (placed : Placed) : List Placed :=
  siblings (placed.node :: placed.above) [] [] placed.node.children

theorem map_node_siblings (above before : List Node) (placed : List Placed) (nodes : List Node) :
    (siblings above before placed nodes).map (·.node) =
      (placed.map (·.node)).reverse ++ nodes := by
  induction nodes generalizing before placed with
  | nil => simp [siblings]
  | cons node rest ih => simp [siblings, ih]

@[simp]
theorem map_node_children (placed : Placed) :
    placed.children.map (·.node) = placed.node.children := by
  simp [children, map_node_siblings]

/-- The places visited, the last one first, followed by everything on a stack of subtrees. -/
def walkFrom (visited : List Placed) : List Placed → List Placed
  | [] => visited.reverse
  | placed :: stack => walkFrom (placed :: visited) (placed.children ++ stack)
termination_by stack => Node.sizes (stack.map (·.node))
decreasing_by
  simp only [List.map_append, List.map_cons, map_node_children, Node.sizes, Node.sizes_append,
    Node.size_eq]
  omega

/-- A node and its descendants at their places, in pre-order. -/
def walk (placed : Placed) : List Placed :=
  walkFrom [] [placed]

end Placed

end ProgramInterface
