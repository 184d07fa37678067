import ProgramInterface.Syntax.Query

/-!
# The order of a walk

A walk keeps a stack of subtrees still to visit. `walk_eq_preorder` says that it lists the nodes of
a tree in recursive pre-order all the same, so the matches of a query are the nodes of its kinds in
that order (`matching_eq_filter_preorder`). A walk through places visits the same nodes
(`Placed.map_node_walk`). What holds of every node of a tree holds everywhere in its subtrees
(`Node.Everywhere`).
-/

namespace ProgramInterface

namespace Node

/-- The pre-order of a tree is its root followed by the pre-orders of the children. -/
theorem preorder_eq (node : Node) : node.preorder = node :: preorders node.children := by
  cases node
  rfl

/-- The pre-order of a sequence of trees is read part by part. -/
theorem preorders_append (front back : List Node) :
    preorders (front ++ back) = preorders front ++ preorders back := by
  induction front with
  | nil => rfl
  | cons node rest ih =>
      show node.preorder ++ preorders (rest ++ back) = (node.preorder ++ preorders rest) ++ _
      rw [ih, List.append_assoc]

/-- The stack holds, subtree by subtree, exactly what the walk has still to list. -/
theorem walk_from_eq (visited stack : List Node) :
    walkFrom visited stack = visited.reverse ++ preorders stack := by
  fun_induction walkFrom visited stack with
  | case1 visited => simp [preorders]
  | case2 visited node stack ih =>
      rw [ih, preorders_append]
      simp [preorders, preorder_eq node]

/-- Walking with a stack lists a tree in recursive pre-order. -/
theorem walk_eq_preorder (root : Node) : root.walk = root.preorder := by
  rw [walk, walk_from_eq]
  simp [preorders]

/-- The matches of a query are the nodes of its kinds, in pre-order. -/
theorem matching_eq_filter_preorder (root : Node) (kind : QueryKind) :
    root.matching kind = root.preorder.filter kind.isMatch := by
  rw [matching, walk_eq_preorder]

theorem mem_preorders {node : Node} {roots : List Node} :
    node ∈ preorders roots ↔ ∃ root ∈ roots, node ∈ root.preorder := by
  induction roots with
  | nil => simp [preorders]
  | cons root rest ih => simp [preorders, ih]

/-- A node lies in a tree if it is the root or lies in the tree of a child. -/
theorem mem_preorder {node root : Node} :
    node ∈ root.preorder ↔ node = root ∨ ∃ child ∈ root.children, node ∈ child.preorder := by
  rw [preorder_eq, List.mem_cons, mem_preorders]

theorem mem_preorder_self (root : Node) : root ∈ root.preorder :=
  mem_preorder.2 (.inl rfl)

/-- What holds of a node once it holds of all smaller ones holds of every node. -/
theorem size_induction {motive : Node → Prop}
    (step : ∀ node, (∀ smaller, smaller.size < node.size → motive smaller) → motive node)
    (node : Node) : motive node :=
  step node fun smaller _ => size_induction step smaller
termination_by node.size

/-- What lies below a node of a tree lies in the tree. -/
theorem mem_preorder_trans {inner node root : Node} (hinner : inner ∈ node.preorder)
    (hnode : node ∈ root.preorder) : inner ∈ root.preorder := by
  induction root using size_induction with
  | step root ih =>
      rcases mem_preorder.1 hnode with rfl | ⟨child, hchild, hbelow⟩
      · exact hinner
      · exact mem_preorder.2
          (.inr ⟨child, hchild, ih child (size_lt_of_mem_children hchild) hbelow⟩)

theorem mem_preorder_child {node child : Node} {role : Role} (h : node.child? role = some child) :
    child ∈ node.preorder :=
  mem_preorder.2 (.inr ⟨child, List.mem_of_find?_eq_some h, mem_preorder_self child⟩)

/-! ## What holds all over a tree -/

/-- Whether a property holds of every node of a tree. -/
def Everywhere (p : Node → Prop) (root : Node) : Prop :=
  ∀ node ∈ root.preorder, p node

namespace Everywhere

variable {p : Node → Prop} {root : Node}

theorem iff_children :
    root.Everywhere p ↔ p root ∧ ∀ child ∈ root.children, child.Everywhere p := by
  constructor
  · intro h
    exact ⟨h root (mem_preorder_self root), fun child hchild node hnode =>
      h node (mem_preorder.2 (.inr ⟨child, hchild, hnode⟩))⟩
  · rintro ⟨hroot, hchildren⟩ node hnode
    rcases mem_preorder.1 hnode with rfl | ⟨child, hchild, hbelow⟩
    · exact hroot
    · exact hchildren child hchild node hbelow

theorem of_leaf (hleaf : root.children = []) (h : p root) : root.Everywhere p :=
  iff_children.2 ⟨h, by simp [hleaf]⟩

theorem here (h : root.Everywhere p) : p root :=
  (iff_children.1 h).1

theorem child (h : root.Everywhere p) {child : Node} (hchild : child ∈ root.children) :
    child.Everywhere p :=
  (iff_children.1 h).2 child hchild

theorem child_as (h : root.Everywhere p) {child : Node} {role : Role}
    (hchild : root.child? role = some child) : child.Everywhere p :=
  h.child (List.mem_of_find?_eq_some hchild)

theorem below (h : root.Everywhere p) {node : Node} (hnode : node ∈ root.preorder) :
    node.Everywhere p :=
  fun inner hinner => h inner (mem_preorder_trans hinner hnode)

theorem mono {q : Node → Prop} (h : root.Everywhere p) (himp : ∀ node, p node → q node) :
    root.Everywhere q :=
  fun node hnode => himp node (h node hnode)

end Everywhere

end Node

namespace Placed

/-- Visiting places instead of nodes changes neither the nodes nor their order. -/
theorem map_node_walk_from (visited stack : List Placed) :
    (walkFrom visited stack).map (·.node) =
      Node.walkFrom (visited.map (·.node)) (stack.map (·.node)) := by
  rw [Node.walk_from_eq]
  fun_induction walkFrom visited stack with
  | case1 visited => simp [Node.preorders]
  | case2 visited placed stack ih =>
      rw [ih]
      simp [Node.preorders, Node.preorders_append, Node.preorder_eq placed.node]

/-- The nodes of a walk through places are those of the walk through the tree. -/
theorem map_node_walk (placed : Placed) : placed.walk.map (·.node) = placed.node.preorder := by
  rw [walk, map_node_walk_from, ← Node.walk_eq_preorder]
  rfl

/-- A query finds the same nodes whether it is asked for them or for their places. -/
theorem map_node_matching (root : Node) (query : QueryKind) :
    ((ofRoot root).matching query).map (·.node) = root.matching query := by
  rw [Node.matching_eq_filter_preorder, matching, ← show (ofRoot root).node = root from rfl,
    ← map_node_walk, List.filter_map]
  rfl

end Placed

end ProgramInterface
