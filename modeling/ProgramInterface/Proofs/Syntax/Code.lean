import Mathlib.Data.List.Find
import ProgramInterface.Proofs.Grammar.Nodes
import ProgramInterface.Shape.Normalize
import ProgramInterface.Syntax.Query

/-!
# The code of a syntax tree

What is left of a syntax tree without its comments is its code: the kinds, naming and roles of the
other nodes, and the texts of attributes, macro invocations, integer literals, names and types. Nothing
else of a node is code, neither where it stands nor what is written in it, so a comment may come and go
wherever it is not part of one of those texts. What is read from the nodes of a tree one by one is read
from its code as well, if comments say nothing to it (`filter_map_code`).
-/

namespace ProgramInterface

namespace Node

/-- Whether the children of a node are types: the arguments of a generic type or the elements of a
tuple. -/
def holdsTypes (node : Node) : Bool :=
  node.role = some .typeArguments || node.kind = .tupleType

/-- Whether the text of a node is code: that of an attribute, a macro invocation, an integer literal, a
name or a type. A type plays the role of one or, if `amongTypes`, stands among others. -/
def keepsText (amongTypes : Bool) (node : Node) : Bool :=
  [Kind.attributeItem, .macroInvocation, .integerLiteral].contains node.kind ||
    [some Role.name, some .type].contains node.role ||
      amongTypes && node.isNamed && node.kind.isArgument

mutual

/-- The code of a node. -/
def code (amongTypes : Bool) : Node → Node
  | node@⟨kind, isNamed, role, _, _, text, children⟩ =>
    ⟨kind, isNamed, role, 0, 0, if node.keepsText amongTypes then text else "",
      codes node.holdsTypes children⟩

/-- The code of some siblings: of those that are no comments. -/
def codes (amongTypes : Bool) : List Node → List Node
  | [] => []
  | node :: rest =>
    if node.kind.isComment then codes amongTypes rest
    else node.code amongTypes :: codes amongTypes rest

end

/-- Whether two trees are equal once their comments are deleted, as far as they are code. -/
def SameCode (root other : Node) : Prop :=
  root.code false = other.code false

mutual

/-- Trees are compared part by part. -/
def decEq : (node other : Node) → Decidable (node = other)
  | ⟨kind, isNamed, role, start, stop, text, children⟩,
      ⟨kind', isNamed', role', start', stop', text', children'⟩ =>
    match decEqs children children' with
    | isTrue hchildren =>
      decidable_of_iff (kind = kind' ∧ isNamed = isNamed' ∧ role = role' ∧ start = start' ∧
        stop = stop' ∧ text = text') (by simp [hchildren])
    | isFalse hchildren => isFalse fun h => hchildren (congrArg Node.children h)

/-- Lists of trees are compared tree by tree. -/
def decEqs : (nodes others : List Node) → Decidable (nodes = others)
  | [], [] => isTrue rfl
  | [], _ :: _ => isFalse nofun
  | _ :: _, [] => isFalse nofun
  | node :: rest, other :: others =>
    match decEq node other, decEqs rest others with
    | isTrue hnode, isTrue hrest => isTrue (by rw [hnode, hrest])
    | isFalse hnode, _ => isFalse fun h => hnode (List.cons.inj h).1
    | _, isFalse hrest => isFalse fun h => hrest (List.cons.inj h).2

end

instance : DecidableEq Node :=
  decEq

instance (root other : Node) : Decidable (root.SameCode other) :=
  inferInstanceAs (Decidable (root.code false = other.code false))

variable {node : Node} {nodes : List Node}

@[simp]
theorem kind_code (amongTypes : Bool) (node : Node) : (node.code amongTypes).kind = node.kind := by
  cases node
  rfl

@[simp]
theorem is_named_code (amongTypes : Bool) (node : Node) :
    (node.code amongTypes).isNamed = node.isNamed := by
  cases node
  rfl

@[simp]
theorem role_code (amongTypes : Bool) (node : Node) : (node.code amongTypes).role = node.role := by
  cases node
  rfl

@[simp]
theorem children_code (amongTypes : Bool) (node : Node) :
    (node.code amongTypes).children = codes node.holdsTypes node.children := by
  cases node
  rfl

theorem text_code {amongTypes : Bool} (h : node.keepsText amongTypes = true) :
    (node.code amongTypes).text = node.text := by
  cases node
  exact if_pos h

theorem codes_eq (amongTypes : Bool) (nodes : List Node) :
    codes amongTypes nodes = (nodes.filter fun node => !node.kind.isComment).map
      (code amongTypes) := by
  induction nodes with
  | nil => rfl
  | cons node rest ih => cases hcomment : node.kind.isComment <;> simp [codes, hcomment, ih]

/-! ## Children -/

/-- Comments play no role, so the first sibling in a role is among the others. -/
theorem find_role_codes (h : ∀ node ∈ nodes, node.Tidy) (amongTypes : Bool) (role : Role) :
    (codes amongTypes nodes).find? (·.role = some role) =
      (nodes.find? (·.role = some role)).map (code amongTypes) := by
  rw [codes_eq, List.find?_map, List.find?_filter]
  refine congrArg (Option.map _) (List.find?_congr fun node hnode => ?_)
  have hrole := ((h node hnode).here.comment · |>.1)
  cases hcomment : node.kind.isComment <;> simp_all

theorem child_code (h : node.Tidy) (amongTypes : Bool) (role : Role) :
    (node.code amongTypes).child? role = (node.child? role).map (code node.holdsTypes) := by
  rw [child?, children_code]
  exact find_role_codes (fun _ hchild => h.child hchild) _ role

theorem children_as_code (h : node.Tidy) (amongTypes : Bool) (role : Role) :
    (node.code amongTypes).childrenAs role = (node.childrenAs role).map (code node.holdsTypes) := by
  rw [childrenAs, childrenAs, children_code, codes_eq, List.filter_map, List.filter_filter]
  refine congrArg (List.map _) (List.filter_congr fun child hchild => ?_)
  have hrole := ((h.child hchild).here.comment · |>.1)
  cases hcomment : child.kind.isComment <;> simp_all

/-- The named children of a kind that is not that of a comment. -/
theorem named_children_code {p : Kind → Bool} (hp : ∀ kind : Kind, kind.isComment = true →
    p kind = false) (amongTypes : Bool) (node : Node) :
    (node.code amongTypes).namedChildren.filter (p ·.kind) =
      (node.namedChildren.filter (p ·.kind)).map (code node.holdsTypes) := by
  simp only [namedChildren, children_code, codes_eq, List.filter_map, List.filter_filter]
  refine congrArg (List.map _) (List.filter_congr fun child _ => ?_)
  have hcomment := hp child.kind
  cases hkind : child.kind.isComment <;> simp_all

theorem argument_nodes_code (amongTypes : Bool) (node : Node) :
    (node.code amongTypes).argumentNodes = node.argumentNodes.map (code node.holdsTypes) :=
  named_children_code (fun kind hcomment => by simp [Kind.isArgument, hcomment]) amongTypes node

theorem keeps_text_of_role {role : Role} (h : role = .name ∨ role = .type) {child : Node}
    (hchild : node.child? role = some child) (amongTypes : Bool) :
    child.keepsText amongTypes = true := by
  have hrole : child.role = some role := by simpa using List.find?_some hchild
  rcases h with rfl | rfl <;> simp [keepsText, hrole]

theorem child_text_code (h : node.Tidy) {role : Role} (hrole : role = .name ∨ role = .type)
    (amongTypes : Bool) : (node.code amongTypes).childText role = node.childText role := by
  rw [childText, childText, child_code h]
  cases hchild : node.child? role with
  | none => rfl
  | some child => exact text_code (keeps_text_of_role hrole hchild _)

/-! ## Trees -/

/-- Whether something is read from nodes as from their code, and nothing from comments. -/
structure ReadsCode {α : Type} (f : Node → Option α) (nodes : List Node) : Prop where
  comment : ∀ node : Node, node.kind.isComment = true → f node = none
  code : ∀ node ∈ nodes, ∀ amongTypes, f (node.code amongTypes) = f node

variable {α : Type} {f : Node → Option α}

theorem ReadsCode.mono {nodes others : List Node} (h : ReadsCode f nodes)
    (hothers : ∀ node ∈ others, node ∈ nodes) : ReadsCode f others :=
  ⟨h.comment, fun node hnode => h.code node (hothers node hnode)⟩

mutual

/-- What is read from the nodes of a tree is read from its code. -/
theorem filter_map_code (amongTypes : Bool) : ∀ node : Node, node.Tidy →
    ReadsCode f node.preorder →
      (node.code amongTypes).preorder.filterMap f = node.preorder.filterMap f
  | ⟨_, _, _, _, _, _, children⟩, hnode, h => by
    have hbelow (amongTypes : Bool) := filter_map_codes amongTypes children
      (fun _ hchild => hnode.child hchild) (h.mono fun _ hinner => List.mem_cons_of_mem _ hinner)
    rw [preorder_eq, preorder_eq, List.filterMap_cons, List.filterMap_cons,
      h.code _ (mem_preorder_self _), children_code, hbelow]

/-- What is read from the nodes of some trees is read from their code. -/
theorem filter_map_codes (amongTypes : Bool) : ∀ nodes : List Node,
    (∀ node ∈ nodes, node.Tidy) → ReadsCode f (preorders nodes) →
      (preorders (codes amongTypes nodes)).filterMap f = (preorders nodes).filterMap f
  | [], _, _ => rfl
  | node :: rest, hnodes, h => by
    have hnode := filter_map_code amongTypes node (hnodes node (List.mem_cons_self ..))
      (h.mono fun _ hinner => List.mem_append_left _ hinner)
    have hrest := filter_map_codes amongTypes rest
      (fun other hother => hnodes other (List.mem_cons_of_mem _ hother))
      (h.mono fun _ hinner => List.mem_append_right _ hinner)
    rw [preorders, codes, List.filterMap_append]
    split
    · rename_i hkind
      -- A comment that is left out is a leaf, so nothing is left out with it.
      have hleaf := ((hnodes node (List.mem_cons_self ..)).here.comment hkind).2
      rw [hrest, preorder_eq, hleaf, preorders, List.filterMap_cons, h.comment node hkind]
      rfl
    · rw [preorders, List.filterMap_append, hnode, hrest]

end

/-! ## Queries -/

@[simp]
theorem is_match_code (query : QueryKind) (amongTypes : Bool) (node : Node) :
    query.isMatch (node.code amongTypes) = query.isMatch node := by
  rw [QueryKind.isMatch, kind_code, QueryKind.isMatch]

/-- No query asks for comments. -/
theorem is_match_comment (query : QueryKind) (h : node.kind.isComment = true) :
    query.isMatch node = false := by
  rw [QueryKind.isMatch]
  cases hkind : node.kind <;> first | cases query <;> rfl | simp [hkind, Kind.isComment] at h

/-- What is read from the nodes of a class alone. -/
theorem ReadsCode.of_class {p : Node → Bool}
    (hcomment : ∀ node : Node, node.kind.isComment = true → p node = false)
    (hclass : ∀ node ∈ nodes, ∀ amongTypes, p (node.code amongTypes) = p node)
    (hcode : ∀ node ∈ nodes, p node = true → ∀ amongTypes, f (node.code amongTypes) = f node) :
    ReadsCode (fun node => if p node then f node else none) nodes where
  comment node h := by
    rw [hcomment node h]
    rfl
  code node hnode amongTypes := by
    rw [hclass node hnode]
    cases hp : p node with
    | false => rfl
    | true => exact hcode node hnode hp amongTypes

/-- What is read from the matches of a query is read from the code. -/
theorem matching_code (query : QueryKind) (hnode : node.Tidy)
    (hcode : ∀ inner ∈ node.preorder, query.isMatch inner = true → ∀ amongTypes,
      f (inner.code amongTypes) = f inner) (amongTypes : Bool) :
    ((node.code amongTypes).matching query).filterMap f = (node.matching query).filterMap f := by
  simp only [matching_eq_filter_preorder, List.filterMap_filter]
  exact filter_map_code amongTypes node hnode
    (.of_class (fun _ => is_match_comment query) (fun _ _ _ => is_match_code query _ _) hcode)

/-- What is read from the first node of a class. -/
theorem find_map_eq (p : Node → Bool) (g : Node → α) (nodes : List Node) :
    (nodes.find? p).map g =
      (nodes.filterMap fun node => if p node then some (g node) else none).head? := by
  rw [List.find?_eq_findSome?_guard, List.map_findSome?, List.head?_filterMap]
  congr 1
  funext node
  cases hnode : p node <;> simp [Option.guard, hnode]

/-- What is read from the first node of a class is read from the code. -/
theorem find_map_code {p : Node → Bool} {g : Node → α} (hnode : node.Tidy)
    (h : ReadsCode (fun inner => if p inner then some (g inner) else none) node.preorder)
    (amongTypes : Bool) :
    ((node.code amongTypes).preorder.find? p).map g = (node.preorder.find? p).map g := by
  rw [find_map_eq, find_map_eq, filter_map_code amongTypes node hnode h]

end Node

end ProgramInterface
