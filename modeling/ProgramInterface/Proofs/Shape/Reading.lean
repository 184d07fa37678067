import ProgramInterface.Proofs.Shape.Normalize

/-!
# What shapes are made of

`Reads mode node shape` tells form by form how a mode reads a type node, and the shape of a node is
read so (`Node.reads_shape`). Whatever holds of shapes in general follows by induction on it: in which
forms they come, where their leaves are from, and how deep they are (`shape_made_of_node`).
-/

namespace ProgramInterface

/-! ## Leaves and depth of shapes -/

namespace Shape

/-- A primitive or named type. -/
def IsLeaf : Shape → Prop
  | primitive _ => True
  | named _ => True
  | _ => False

/-- A number of vectors around a shape. -/
def vectors : Nat → Shape → Shape
  | 0, shape => shape
  | count + 1, shape => .vector (vectors count shape)

mutual

/-- The leaves of a shape from left to right, each with whether it stands directly in a vector. -/
def leavesIn (inVector : Bool) : Shape → List (Shape × Bool)
  | primitive name => [(primitive name, inVector)]
  | named name => [(named name, inVector)]
  | vector element => element.leavesIn true
  | tuple elements => leavesOfAll elements
  | option inner => inner.leavesIn false

/-- The leaves of the elements of a tuple. -/
def leavesOfAll : List Shape → List (Shape × Bool)
  | [] => []
  | shape :: rest => shape.leavesIn false ++ leavesOfAll rest

end

/-- The leaves of a shape by itself. -/
def leaves (shape : Shape) : List (Shape × Bool) :=
  shape.leavesIn false

mutual

/-- How many vectors, tuples and options stand around each other. -/
def depth : Shape → Nat
  | primitive _ => 0
  | named _ => 0
  | vector element => element.depth + 1
  | tuple elements => depthOfAll elements + 1
  | option inner => inner.depth + 1

/-- The greatest depth among some shapes. -/
def depthOfAll : List Shape → Nat
  | [] => 0
  | shape :: rest => max shape.depth (depthOfAll rest)

end

theorem mem_leaves_of_all {leaf : Shape × Bool} {shapes : List Shape} :
    leaf ∈ leavesOfAll shapes ↔ ∃ shape ∈ shapes, leaf ∈ shape.leavesIn false := by
  induction shapes with
  | nil => simp [leavesOfAll]
  | cons shape rest ih => simp [leavesOfAll, ih]

theorem depth_of_all_le {shapes : List Shape} {bound : Nat}
    (h : ∀ shape ∈ shapes, shape.depth ≤ bound) : depthOfAll shapes ≤ bound := by
  induction shapes with
  | nil => exact Nat.zero_le bound
  | cons shape rest ih =>
      exact Nat.max_le.2 ⟨h shape (List.mem_cons_self ..),
        ih fun other hother => h other (List.mem_cons_of_mem _ hother)⟩

end Shape

/-! ## Height of nodes -/

namespace Node

mutual

/-- How many nodes lie below each other under a node. -/
def height : Node → Nat
  | ⟨_, _, _, _, _, _, children⟩ => heights children

/-- The number of levels that some trees have. -/
def heights : List Node → Nat
  | [] => 0
  | node :: rest => max (node.height + 1) (heights rest)

end

theorem height_eq (node : Node) : node.height = heights node.children := by
  cases node
  rfl

theorem height_lt_heights {node : Node} {nodes : List Node} (h : node ∈ nodes) :
    node.height < heights nodes := by
  induction nodes with
  | nil => cases h
  | cons first rest ih =>
      rcases List.mem_cons.1 h with rfl | hrest
      · exact Nat.le_max_left ..
      · exact Nat.lt_of_lt_of_le (ih hrest) (Nat.le_max_right ..)

theorem height_lt_of_mem_children {node child : Node} (h : child ∈ node.children) :
    child.height < node.height :=
  height_eq node ▸ height_lt_heights h

theorem height_le_of_mem_preorder {node inner : Node} (h : inner ∈ node.preorder) :
    inner.height ≤ node.height := by
  induction node using size_induction with
  | step node ih =>
      rcases mem_preorder.1 h with rfl | ⟨child, hchild, hbelow⟩
      · exact Nat.le_refl _
      · have hinner := ih child (size_lt_of_mem_children hchild) hbelow
        exact Nat.le_trans hinner (Nat.le_of_lt (height_lt_of_mem_children hchild))

/-! ## Where the parts of a type node stand -/

/-- A node that stands in the tree of another one, below its root. -/
structure IsBelow (inner node : Node) : Prop where
  mem : inner ∈ node.preorder
  height : inner.height < node.height

theorem IsBelow.of_child {inner node : Node} (h : inner ∈ node.children) : inner.IsBelow node :=
  ⟨mem_preorder.2 (.inr ⟨inner, h, mem_preorder_self inner⟩), height_lt_of_mem_children h⟩

theorem IsBelow.of_mem {inner between node : Node} (h : inner.IsBelow between)
    (hbetween : between ∈ node.preorder) : inner.IsBelow node :=
  ⟨mem_preorder_trans h.mem hbetween,
    Nat.lt_of_lt_of_le h.height (height_le_of_mem_preorder hbetween)⟩

theorem below_of_mem_argument_nodes {node argument : Node} (h : argument ∈ node.argumentNodes) :
    argument.IsBelow node :=
  .of_child (List.mem_filter.1 (List.mem_filter.1 h).1).1

theorem below_of_mem_type_arguments {node argument : Node} (h : argument ∈ node.typeArguments) :
    argument.IsBelow node := by
  unfold typeArguments at h
  cases harguments : node.child? .typeArguments with
  | none => simp [harguments] at h
  | some arguments =>
      rw [harguments, Option.elim_some] at h
      exact (below_of_mem_argument_nodes h).of_mem (mem_preorder_child harguments)

theorem below_of_vector_element {node element : Node} (h : node.vectorElement? = some element) :
    element.IsBelow node := by
  obtain ⟨generic, hgeneric, helement⟩ := Option.bind_eq_some_iff.1 h
  have hmem := List.mem_of_find?_eq_some hgeneric
  rw [walk_eq_preorder] at hmem
  exact (below_of_mem_type_arguments (List.mem_of_find?_eq_some helement)).of_mem hmem

end Node

/-! ## The forms of reading -/

/-- How a mode reads a type node as a shape. -/
inductive Reads (mode : FieldMode) : Node → Shape → Prop where
  | primitive {node : Node} (hkind : node.kind = .primitiveType) :
      Reads mode node (.primitive node.content)
  | named {node : Node} (hplain : mode ≠ .account → node.mentionsVector = false) :
      Reads mode node (.named node.content)
  | vector {node element : Node} {shape : Shape} (hmode : mode ≠ .account)
      (helement : node.vectorElement? = some element) (hreads : Reads mode element shape) :
      Reads mode node (.vector shape)
  | unknownVector {node : Node} (hmode : mode ≠ .account) (hnone : node.vectorElement? = none) :
      Reads mode node (.vector Node.defaultElement)
  | tuple {node : Node} (shapeOf : Node → Shape) (hmode : mode = .structural)
      (hreads : ∀ element ∈ node.argumentNodes, Reads mode element (shapeOf element)) :
      Reads mode node (.tuple (node.argumentNodes.map shapeOf))
  | option {node argument : Node} {shape : Shape} (hmode : mode = .structural)
      (hargument : argument ∈ node.typeArguments) (hreads : Reads mode argument shape) :
      Reads mode node (.option shape)

/-- A type that may be a vector is read so if its element is. -/
theorem Reads.vector_shape {mode : FieldMode} {node : Node} (hmode : mode ≠ .account)
    (helement : ∀ element, node.vectorElement? = some element →
      Reads mode element (element.shape mode)) : Reads mode node (node.vectorShape mode) := by
  unfold Node.vectorShape
  split
  · cases hfound : node.vectorElement? with
    | none => exact .unknownVector hmode hfound
    | some element => exact .vector hmode hfound (helement element hfound)
  · exact .named fun _ => Bool.eq_false_iff.2 ‹_›

/-- The shape of a node in a mode is what the mode reads it as. -/
theorem Node.reads_shape (mode : FieldMode) (node : Node) : Reads mode node (node.shape mode) := by
  induction node using size_induction with
  | step node ih =>
      by_cases hkind : node.kind = .primitiveType
      · rw [shape_primitive hkind]
        exact .primitive hkind
      cases mode with
      | account =>
          rw [shape_account hkind]
          exact .named fun h => absurd rfl h
      | field =>
          rw [shape_field hkind]
          exact .vector_shape nofun fun element helement =>
            ih element (size_lt_of_vectorElement? helement)
      | structural =>
          rcases shape_structural_cases node with
            ⟨h, _⟩ | ⟨_, htuple⟩ | ⟨argument, hargument, hoption⟩ | ⟨_, hvector⟩
          · exact absurd h hkind
          · rw [htuple]
            exact .tuple _ rfl fun element helement =>
              ih element (size_lt_of_mem_argumentNodes helement)
          · rw [hoption]
            exact .option rfl hargument (ih argument (size_lt_of_mem_typeArguments hargument))
          · rw [hvector]
            exact .vector_shape nofun fun element helement =>
              ih element (size_lt_of_vectorElement? helement)

namespace Reads

variable {mode : FieldMode} {node : Node} {shape : Shape}

/-! ## What follows from reading -/

theorem is_leaf_of_account (h : Reads .account node shape) : shape.IsLeaf := by
  cases h with
  | primitive => trivial
  | named => trivial
  | vector hmode => exact absurd rfl hmode
  | unknownVector hmode => exact absurd rfl hmode
  | tuple _ hmode => cases hmode
  | option hmode => cases hmode

theorem vectors_of_field (h : Reads .field node shape) :
    ∃ count leaf, leaf.IsLeaf ∧ shape = .vectors count leaf := by
  generalize hmode : FieldMode.field = mode at h
  induction h with
  | primitive => exact ⟨0, .primitive _, trivial, rfl⟩
  | named => exact ⟨0, .named _, trivial, rfl⟩
  | vector _ _ _ ih =>
      obtain ⟨count, leaf, hleaf, rfl⟩ := ih
      exact ⟨count + 1, leaf, hleaf, rfl⟩
  | unknownVector => exact ⟨1, Node.defaultElement, trivial, rfl⟩
  | tuple _ hstructural => cases hmode.trans hstructural
  | option hstructural => cases hmode.trans hstructural

/-- A shape is nested at most one level deeper than its node: only an element that is not found has no
node of its own. -/
theorem depth_le (h : Reads mode node shape) : shape.depth ≤ node.height + 1 := by
  induction h with
  | primitive => exact Nat.zero_le _
  | named => exact Nat.zero_le _
  | vector _ helement _ ih =>
      have hbelow := (Node.below_of_vector_element helement).height
      rw [Shape.depth]
      omega
  | unknownVector => exact Nat.le_add_left 1 _
  | @tuple node shapeOf _ _ ih =>
      rw [Shape.depth]
      refine Nat.succ_le_succ (Shape.depth_of_all_le fun shape hshape => ?_)
      obtain ⟨element, helement, rfl⟩ := List.mem_map.1 hshape
      have hbelow := (Node.below_of_mem_argument_nodes helement).height
      have hdepth := ih element helement
      omega
  | option _ hargument _ ih =>
      have hbelow := (Node.below_of_mem_type_arguments hargument).height
      rw [Shape.depth]
      omega

/-- Where a leaf of a shape is from: a name is the text of a node in the tree and, outside of account
mode, does not mention a vector; a primitive type is that of a node in the tree, or it stands in a
vector for an element that was not found. -/
def LeafFrom (mode : FieldMode) (node : Node) : Shape × Bool → Prop
  | (.named name, _) => (∃ inner ∈ node.preorder, name = inner.content) ∧
      (mode ≠ .account → ¬ Text.ofString "Vec<" <:+: name)
  | (.primitive name, inVector) =>
      (∃ inner ∈ node.preorder, inner.kind = .primitiveType ∧ name = inner.content) ∨
        (name = Text.ofString "u8" ∧ inVector = true)
  | _ => False

theorem LeafFrom.of_inner {inner : Node} {leaf : Shape × Bool} (h : LeafFrom mode inner leaf)
    (hinner : inner ∈ node.preorder) : LeafFrom mode node leaf := by
  obtain ⟨shape, inVector⟩ := leaf
  cases shape with
  | primitive name =>
      refine h.imp (fun ⟨found, hfound, hprimitive⟩ => ?_) id
      exact ⟨found, Node.mem_preorder_trans hfound hinner, hprimitive⟩
  | named name =>
      obtain ⟨⟨found, hfound, hname⟩, hplain⟩ := h
      exact ⟨⟨found, Node.mem_preorder_trans hfound hinner, hname⟩, hplain⟩
  | vector | tuple | option => exact h.elim

/-- A node whose text does not mention a vector has no such text. -/
theorem not_infix_content (h : node.mentionsVector = false) :
    ¬ Text.ofString "Vec<" <:+: node.content := by
  intro hinfix
  obtain ⟨chars, hchars, heq⟩ := List.infix_map_iff.1 hinfix
  have hvec : "Vec<".toList = chars :=
    (List.map_inj_right fun _ _ => CodePoint.scalar.inj).1 heq
  exact Bool.false_ne_true (h.symm.trans (occurs_in_iff.2 (hvec ▸ hchars)))

theorem leaf_from (h : Reads mode node shape) (inVector : Bool) {leaf : Shape × Bool}
    (hleaf : leaf ∈ shape.leavesIn inVector) : LeafFrom mode node leaf := by
  induction h generalizing inVector with
  | @primitive node hkind =>
      rw [Shape.leavesIn, List.mem_singleton] at hleaf
      subst hleaf
      exact .inl ⟨node, Node.mem_preorder_self node, hkind, rfl⟩
  | @named node hplain =>
      rw [Shape.leavesIn, List.mem_singleton] at hleaf
      subst hleaf
      exact ⟨⟨node, Node.mem_preorder_self node, rfl⟩, fun h => not_infix_content (hplain h)⟩
  | vector _ helement _ ih =>
      rw [Shape.leavesIn] at hleaf
      exact (ih true hleaf).of_inner (Node.below_of_vector_element helement).mem
  | unknownVector =>
      rw [Shape.leavesIn, Node.defaultElement, Shape.leavesIn, List.mem_singleton] at hleaf
      subst hleaf
      exact .inr ⟨rfl, rfl⟩
  | tuple _ _ _ ih =>
      rw [Shape.leavesIn, Shape.mem_leaves_of_all] at hleaf
      obtain ⟨shape, hshape, hleaf⟩ := hleaf
      obtain ⟨element, helement, rfl⟩ := List.mem_map.1 hshape
      exact (ih element helement false hleaf).of_inner
        (Node.below_of_mem_argument_nodes helement).mem
  | option _ hargument _ ih =>
      rw [Shape.leavesIn] at hleaf
      exact (ih false hleaf).of_inner (Node.below_of_mem_type_arguments hargument).mem

end Reads

/-- Every shape of a node is made of the node: in account mode it is a leaf, in field mode a leaf in
vectors; a named leaf is the text of a node in the tree, which mentions no vector unless in account
mode; a primitive leaf is that of a primitive type in the tree or the default element directly in a
vector; and shapes are at most one level deeper than the tree. -/
theorem shape_made_of_node (mode : FieldMode) (node : Node) :
    (mode = .account → (node.shape mode).IsLeaf) ∧
    (mode = .field → ∃ count leaf, leaf.IsLeaf ∧ node.shape mode = .vectors count leaf) ∧
    (∀ name inVector, (.named name, inVector) ∈ (node.shape mode).leaves →
      (∃ inner ∈ node.preorder, name = inner.content) ∧
      (mode ≠ .account → ¬ Text.ofString "Vec<" <:+: name)) ∧
    (∀ name inVector, (.primitive name, inVector) ∈ (node.shape mode).leaves →
      (∃ inner ∈ node.preorder, inner.kind = .primitiveType ∧ name = inner.content) ∨
        (name = Text.ofString "u8" ∧ inVector = true)) ∧
    (node.shape mode).depth ≤ node.height + 1 := by
  have hreads := node.reads_shape mode
  refine ⟨?_, ?_, fun _ _ hleaf => hreads.leaf_from false hleaf,
    fun _ _ hleaf => hreads.leaf_from false hleaf, hreads.depth_le⟩
  · rintro rfl
    exact hreads.is_leaf_of_account
  · rintro rfl
    exact hreads.vectors_of_field

end ProgramInterface
