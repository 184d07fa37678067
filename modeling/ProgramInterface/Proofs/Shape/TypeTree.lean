import Mathlib.Data.List.Forall2
import Mathlib.Data.Option.Defs
import ProgramInterface.Proofs.Shape.Normalize
import ProgramInterface.Proofs.Shape.TypeTerm

/-!
# The syntax trees of types

`TypeTerm.IsTree` relates a type to the nodes that are its syntax tree, wherever such a node stands in a
source. The generic types at or below a type and those of its tree come in the same order, with the same
paths and arguments (`TypeTerm.IsTree.generics`), so what a search for a vector finds in the tree is what
the first generic type called `Vec` says (`TypeTerm.IsTree.vector_element`).
-/

namespace ProgramInterface

/-- Whether no generic type stands at or below a node. -/
def Node.IsSimple (node : Node) : Prop :=
  ∀ inner ∈ node.preorder, inner.kind ≠ .genericType

/-- The generic types at or below a node, in pre-order. -/
def Node.genericNodes (node : Node) : List Node :=
  node.preorder.filter (·.kind = .genericType)

/-- Whether the named ones among some nodes belong to some items, in order, and the others are
simple. -/
inductive NamedNodes {α : Type} (related : α → Node → Prop) : List α → List Node → Prop where
  | nil : NamedNodes related [] []
  | token {items : List α} {node : Node} {rest : List Node} (hunnamed : node.isNamed = false)
      (hsimple : node.IsSimple) (hrest : NamedNodes related items rest) :
      NamedNodes related items (node :: rest)
  | named {item : α} {items : List α} {node : Node} {rest : List Node}
      (hnamed : node.isNamed = true) (hrelated : related item node)
      (hrest : NamedNodes related items rest) : NamedNodes related (item :: items) (node :: rest)

/-- Whether a node is the syntax tree of a type. Nothing is said of what stands inside the names of a
path, but that it is no generic type. -/
inductive TypeTerm.IsTree : TypeTerm → Node → Prop where
  | lifetime {text : List Char} {node : Node} (hkind : node.kind = .lifetime)
      (htext : node.text = String.ofList text) (hsimple : node.IsSimple) :
      IsTree (.lifetime text) node
  | primitive {text : List Char} {node : Node} (hkind : node.kind = .primitiveType)
      (htext : node.text = String.ofList text) (hsimple : node.IsSimple) :
      IsTree (.primitive text) node
  | path {path : PathTerm} {node : Node}
      (hkind : node.kind = .typeIdentifier ∨ node.kind = .scopedTypeIdentifier)
      (htext : node.text = String.ofList path.text) (hsimple : node.IsSimple) :
      IsTree (.path path) node
  | generic {path : PathTerm} {gap text : List Char} {arguments : List TypeTerm}
      {node head list : Node} (hkind : node.kind = .genericType)
      (htext : node.text = String.ofList text) (hchildren : node.children = [head, list])
      (hhead : head.role = some .type) (hpath : head.text = String.ofList path.text)
      (hsimple : head.IsSimple) (hlist : list.role = some .typeArguments)
      (hlistKind : list.kind = .typeArguments)
      (harguments : NamedNodes IsTree arguments list.children) :
      IsTree (.generic path gap arguments text) node
  | tuple {elements : List TypeTerm} {text : List Char} {node : Node} (hkind : node.kind = .tupleType)
      (htext : node.text = String.ofList text)
      (helements : NamedNodes IsTree elements node.children) : IsTree (.tuple elements text) node
  | array {element : TypeTerm} {length : Option (List Char)} {text : List Char} {node inner : Node}
      {front back : List Node} (hkind : node.kind = .arrayType)
      (htext : node.text = String.ofList text) (hchildren : node.children = front ++ inner :: back)
      (hsimple : ∀ other ∈ front ++ back, other.IsSimple) (helement : IsTree element inner) :
      IsTree (.array element length text) node
  | reference {lifetime text : List Char} {referent : TypeTerm} {node inner : Node}
      {front back : List Node} (hkind : node.kind = .referenceType)
      (htext : node.text = String.ofList text) (hchildren : node.children = front ++ inner :: back)
      (hsimple : ∀ other ∈ front ++ back, other.IsSimple) (hreferent : IsTree referent inner) :
      IsTree (.reference lifetime referent text) node

/-- Whether a node is the syntax tree of a generic type. -/
structure GenericTerm.IsTree (generic : GenericTerm) (node : Node) : Prop where
  kind : node.kind = .genericType
  path : node.childText .type = String.ofList generic.path.text
  arguments : ∃ list, node.child? .typeArguments = some list ∧
    NamedNodes TypeTerm.IsTree generic.arguments list.children

/-- A node for a word or sign without a name. -/
def tokenNode (text : String) : Node :=
  ⟨.token, false, none, 0, 0, text, []⟩

/-- A node for a name with one argument. -/
def appliedNode (name text : String) (argument : Node) : Node :=
  ⟨.genericType, true, none, 0, 0, text,
    [⟨.typeIdentifier, true, some .type, 0, 0, name, []⟩,
      ⟨.typeArguments, true, some .typeArguments, 0, 0, "",
        [tokenNode "<", argument, tokenNode ">"]⟩]⟩

/-! ## Generic types of nodes -/

namespace Node

instance (node : Node) : Decidable node.IsSimple :=
  inferInstanceAs (Decidable (∀ inner ∈ node.preorder, inner.kind ≠ .genericType))

theorem simple_of_children {node : Node} (hkind : node.kind ≠ .genericType)
    (h : ∀ child ∈ node.children, child.IsSimple) : node.IsSimple := by
  intro inner hinner
  rcases mem_preorder.1 hinner with rfl | ⟨child, hchild, hbelow⟩
  · exact hkind
  · exact h child hchild inner hbelow

theorem generics_of_simple {nodes : List Node} (h : ∀ node ∈ nodes, node.IsSimple) :
    (preorders nodes).filter (·.kind = .genericType) = [] := by
  refine List.filter_eq_nil_iff.2 fun inner hinner => ?_
  obtain ⟨node, hnode, hmem⟩ := mem_preorders.1 hinner
  simpa using h node hnode inner hmem

theorem IsSimple.generic_nodes {node : Node} (h : node.IsSimple) : node.genericNodes = [] := by
  refine List.filter_eq_nil_iff.2 fun inner hinner => ?_
  simpa using h inner hinner

theorem generics_cons (node : Node) (rest : List Node) :
    (preorders (node :: rest)).filter (·.kind = .genericType) =
      node.genericNodes ++ (preorders rest).filter (·.kind = .genericType) := by
  rw [genericNodes, ← List.filter_append]
  rfl

theorem generic_nodes_eq {node : Node} (h : node.kind = .genericType) :
    node.genericNodes = node :: (preorders node.children).filter (·.kind = .genericType) := by
  rw [genericNodes, preorder_eq, List.filter_cons_of_pos (by simpa using h)]

theorem generic_nodes_of_ne {node : Node} (h : node.kind ≠ .genericType) :
    node.genericNodes = (preorders node.children).filter (·.kind = .genericType) := by
  rw [genericNodes, preorder_eq, List.filter_cons_of_neg (by simpa using h)]

/-- Among children of which only one is not simple, its generic types are the only ones. -/
theorem generic_nodes_of_one {node inner : Node} {front back : List Node}
    (hkind : node.kind ≠ .genericType) (hchildren : node.children = front ++ inner :: back)
    (hsimple : ∀ other ∈ front ++ back, other.IsSimple) :
    node.genericNodes = inner.genericNodes := by
  rw [generic_nodes_of_ne hkind, hchildren, preorders_append, List.filter_append, generics_cons,
    generics_of_simple fun other hother => hsimple other (List.mem_append_left _ hother),
    generics_of_simple fun other hother => hsimple other (List.mem_append_right _ hother),
    List.nil_append, List.append_nil]

end Node

/-! ## Types and their trees -/

namespace TypeTerm

variable {type : TypeTerm} {node : Node}

theorem IsTree.text_eq (h : type.IsTree node) : node.text = String.ofList type.text := by
  cases h <;> assumption

theorem IsTree.chars_eq (h : type.IsTree node) : node.text.toList = type.text :=
  h.text_eq ▸ String.toList_ofList

theorem IsTree.to_generic {path : PathTerm} {gap text : List Char} {arguments : List TypeTerm}
    (h : (TypeTerm.generic path gap arguments text).IsTree node) :
    (GenericTerm.mk path gap arguments).IsTree node := by
  cases h with
  | @generic _ _ _ _ _ head list hkind _ hchildren hhead hpath _ hlist _ harguments =>
      have hlistOf : node.child? .typeArguments = some list := by
        simp [Node.child?, hchildren, hhead, hlist]
      have hpathOf : node.childText .type = head.text := by
        simp [Node.childText, Node.child?, hchildren, hhead]
      exact ⟨hkind, hpathOf.trans hpath, list, hlistOf, harguments⟩

theorem generics_of_named {types : List TypeTerm} {nodes : List Node}
    (h : NamedNodes TypeTerm.IsTree types nodes)
    (ih : ∀ type ∈ types, ∀ node : Node, TypeTerm.IsTree type node →
      List.Forall₂ GenericTerm.IsTree type.generics node.genericNodes) :
    List.Forall₂ GenericTerm.IsTree (genericsOfAll types)
      ((Node.preorders nodes).filter (·.kind = .genericType)) := by
  induction h with
  | nil => exact .nil
  | token _ hsimple _ ihrest =>
      rw [Node.generics_cons, hsimple.generic_nodes, List.nil_append]
      exact ihrest ih
  | named _ htree _ ihrest =>
      rw [Node.generics_cons, genericsOfAll]
      exact List.rel_append (ih _ (List.mem_cons_self ..) _ htree)
        (ihrest fun type htype => ih type (List.mem_cons_of_mem _ htype))

/-- The generic types at or below a type and those of its tree correspond, in order. -/
theorem IsTree.generics (hwritten : type.IsWritten) (h : type.IsTree node) :
    List.Forall₂ GenericTerm.IsTree type.generics node.genericNodes := by
  induction hwritten generalizing node with
  | lifetime =>
      cases h with
      | lifetime _ _ hsimple => exact hsimple.generic_nodes ▸ .nil
  | primitive =>
      cases h with
      | primitive _ _ hsimple => exact hsimple.generic_nodes ▸ .nil
  | path =>
      cases h with
      | path _ _ hsimple => exact hsimple.generic_nodes ▸ .nil
  | generic _ _ _ _ _ ih =>
      have hgeneric := h.to_generic
      cases h with
      | generic hkind _ hchildren _ _ hsimple _ hlistKind harguments =>
          rw [Node.generic_nodes_eq hkind, hchildren, Node.generics_cons, hsimple.generic_nodes,
            Node.generics_cons, Node.generic_nodes_of_ne (by simp [hlistKind]), List.nil_append]
          refine .cons hgeneric ?_
          exact List.append_nil _ ▸ generics_of_named harguments fun type htype node => ih type htype
  | tuple _ _ _ _ ih =>
      cases h with
      | tuple hkind _ helements =>
          rw [Node.generic_nodes_of_ne (by simp [hkind])]
          exact generics_of_named helements fun type htype node => ih type htype
  | slice _ _ _ ih =>
      cases h with
      | array hkind _ hchildren hsimple helement =>
          rw [Node.generic_nodes_of_one (by simp [hkind]) hchildren hsimple]
          exact ih helement
  | array _ _ _ _ ih =>
      cases h with
      | array hkind _ hchildren hsimple helement =>
          rw [Node.generic_nodes_of_one (by simp [hkind]) hchildren hsimple]
          exact ih helement
  | reference _ _ _ _ ih =>
      cases h with
      | reference hkind _ hchildren hsimple hreferent =>
          rw [Node.generic_nodes_of_one (by simp [hkind]) hchildren hsimple]
          exact ih hreferent

theorem is_tree_applied {name text : String} {argument : TypeTerm} {inner : Node}
    (htext : text = String.ofList (applied name argument).text) (hnamed : inner.isNamed = true)
    (hargument : argument.IsTree inner) : (applied name argument).IsTree (appliedNode name text inner) :=
  .generic rfl htext rfl rfl String.ofList_toList.symm (Node.simple_of_children nofun nofun) rfl rfl
    (.token rfl (by decide) (.named hnamed hargument (.token rfl (by decide) .nil)))

end TypeTerm

end ProgramInterface
