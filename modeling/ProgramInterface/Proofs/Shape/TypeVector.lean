import ProgramInterface.Proofs.Shape.TypeTree

/-!
# Vectors in types

The first vector of a type is the first generic type at or below it, in pre-order, whose path ends in
`Vec`, and its element is the first argument of that one that can be an element. The tree of the type
has the same vector with the same element (`TypeTerm.IsTree.vector_element`), and its text mentions a
vector if and only if a vector of the type is written with the marker
(`TypeTerm.IsTree.mentions_vector_iff`).
-/

namespace ProgramInterface

namespace TypeTerm

variable {type part : TypeTerm} {generic : GenericTerm}

/-! ## Parts of types -/

/-- The types directly below a type. -/
def parts : TypeTerm → List TypeTerm
  | .generic _ _ arguments _ => arguments
  | .tuple elements _ => elements
  | .array element _ _ => [element]
  | .reference _ referent _ => [referent]
  | _ => []

/-- A type as a generic type, if it is one. -/
def toGeneric? : TypeTerm → Option GenericTerm
  | .generic spelled gap arguments _ => some ⟨spelled, gap, arguments⟩
  | _ => none

theorem mem_generics :
    generic ∈ type.generics ↔ type.toGeneric? = some generic ∨
      ∃ part ∈ type.parts, generic ∈ part.generics := by
  cases type <;>
    simp [generics, toGeneric?, parts, mem_generics_of_all, @eq_comm _ generic]

theorem parts_of_generic (h : type.toGeneric? = some generic) : type.parts = generic.arguments := by
  cases type with
  | generic => exact Option.some.inj h ▸ rfl
  | lifetime | primitive | path | tuple | array | reference => cases h

theorem size_lt_of_mem_parts (h : part ∈ type.parts) : sizeOf part < sizeOf type := by
  cases type with
  | generic path gap arguments text =>
      have hpart : sizeOf part < sizeOf arguments := List.sizeOf_lt_of_mem h
      simp only [generic.sizeOf_spec]
      omega
  | tuple elements text =>
      have hpart : sizeOf part < sizeOf elements := List.sizeOf_lt_of_mem h
      simp only [tuple.sizeOf_spec]
      omega
  | array element length text =>
      simp only [List.mem_singleton.1 h, array.sizeOf_spec]
      omega
  | reference lifetime referent text =>
      simp only [List.mem_singleton.1 h, reference.sizeOf_spec]
      omega
  | lifetime | primitive | path => cases h

/-- What holds of a type once it holds of its parts holds of every type. -/
theorem parts_induction {motive : TypeTerm → Prop}
    (step : ∀ type, (∀ part ∈ type.parts, motive part) → motive type) (type : TypeTerm) :
    motive type :=
  step type fun part hpart =>
    have := size_lt_of_mem_parts hpart
    parts_induction step part
termination_by sizeOf type

theorem IsWritten.of_part (h : type.IsWritten) (hpart : part ∈ type.parts) : part.IsWritten := by
  cases h with
  | generic _ _ _ harguments => exact harguments part hpart
  | tuple _ _ helements => exact helements part hpart
  | slice _ helement => exact List.mem_singleton.1 hpart ▸ helement
  | array _ helement => exact List.mem_singleton.1 hpart ▸ helement
  | reference _ _ hreferent => exact List.mem_singleton.1 hpart ▸ hreferent
  | lifetime | primitive | path => cases hpart

/-! ## Arguments of the generic types at or below a type -/

theorem size_lt_of_argument {argument : TypeTerm} (hgeneric : generic ∈ type.generics)
    (hargument : argument ∈ generic.arguments) : sizeOf argument < sizeOf type := by
  induction type using parts_induction with
  | step type ih =>
      rcases mem_generics.1 hgeneric with hown | ⟨part, hpart, hbelow⟩
      · exact size_lt_of_mem_parts (parts_of_generic hown ▸ hargument)
      · exact Nat.lt_trans (ih part hpart hbelow) (size_lt_of_mem_parts hpart)

theorem generics_of_argument {argument : TypeTerm} (hgeneric : generic ∈ type.generics)
    (hargument : argument ∈ generic.arguments) : ∀ inner ∈ argument.generics, inner ∈ type.generics := by
  induction type using parts_induction with
  | step type ih =>
      intro inner hinner
      rcases mem_generics.1 hgeneric with hown | ⟨part, hpart, hbelow⟩
      · exact mem_generics.2 (.inr ⟨argument, parts_of_generic hown ▸ hargument, hinner⟩)
      · exact mem_generics.2 (.inr ⟨part, hpart, ih part hpart hbelow inner hinner⟩)

theorem IsWritten.argument (h : type.IsWritten) {argument : TypeTerm}
    (hgeneric : generic ∈ type.generics) (hargument : argument ∈ generic.arguments) :
    argument.IsWritten := by
  induction type using parts_induction with
  | step type ih =>
      rcases mem_generics.1 hgeneric with hown | ⟨part, hpart, hbelow⟩
      · exact h.of_part (parts_of_generic hown ▸ hargument)
      · exact ih part hpart (h.of_part hpart) hbelow

theorem IsWritten.generic_path (h : type.IsWritten) (hgeneric : generic ∈ type.generics) :
    generic.path.IsWritten := by
  induction type using parts_induction with
  | step type ih =>
      rcases mem_generics.1 hgeneric with hown | ⟨part, hpart, hbelow⟩
      · cases h with
        | generic hpath => exact Option.some.inj hown ▸ hpath
        | lifetime | primitive | path | tuple | slice | array | reference => cases hown
      · exact ih part hpart (h.of_part hpart) hbelow

/-! ## The first vector -/

/-- Whether a type can be the element of a vector. -/
def isElement : TypeTerm → Bool
  | .primitive _ => true
  | .path _ => true
  | .generic .. => true
  | _ => false

/-- The first generic type at or below a type whose path ends in `Vec`. -/
def firstVector? (type : TypeTerm) : Option GenericTerm :=
  type.generics.find? (·.IsVector)

/-- The element of the first vector at or below a type: its first argument that can be one. -/
def vectorElement? (type : TypeTerm) : Option TypeTerm :=
  type.firstVector?.bind fun vector => vector.arguments.find? isElement

theorem exists_vector_of_element {element : TypeTerm} (h : type.vectorElement? = some element) :
    ∃ vector ∈ type.generics, element ∈ vector.arguments := by
  obtain ⟨vector, hvector, helement⟩ := Option.bind_eq_some_iff.1 h
  exact ⟨vector, List.mem_of_find?_eq_some hvector, List.mem_of_find?_eq_some helement⟩

theorem size_lt_of_vector_element {element : TypeTerm} (h : type.vectorElement? = some element) :
    sizeOf element < sizeOf type := by
  obtain ⟨vector, hvector, helement⟩ := exists_vector_of_element h
  exact size_lt_of_argument hvector helement

end TypeTerm

/-! ## Searching in trees -/

/-- Where tests agree on what is related, searches find what is related. -/
theorem find_rel {α β : Type} {related : α → β → Prop} {p : α → Bool} {q : β → Bool}
    {items : List α} {nodes : List β} (h : List.Forall₂ related items nodes)
    (htest : ∀ item ∈ items, ∀ node, related item node → p item = q node) :
    Option.Rel related (items.find? p) (nodes.find? q) := by
  induction h with
  | nil => exact .none
  | @cons item node items nodes hrelated hrest ih =>
      have hhead := htest item (List.mem_cons_self ..) node hrelated
      rw [List.find?_cons, List.find?_cons, ← hhead]
      cases p item with
      | true => exact .some hrelated
      | false => exact ih fun other hother => htest other (List.mem_cons_of_mem _ hother)

theorem NamedNodes.named_nodes {α : Type} {related : α → Node → Prop} {items : List α}
    {nodes : List Node} (h : NamedNodes related items nodes) :
    List.Forall₂ related items (nodes.filter (·.isNamed)) := by
  induction h with
  | nil => exact .nil
  | token hunnamed _ _ ih => rwa [List.filter_cons_of_neg (by simpa using hunnamed)]
  | named hnamed hrelated _ ih =>
      rw [List.filter_cons_of_pos hnamed]
      exact .cons hrelated ih

theorem Kind.is_argument_of_element {kind : Kind} (h : kind.isElementType = true) :
    kind.isArgument = true := by
  revert h
  cases kind <;> decide

theorem Node.is_generic_iff {ending : String} {node : Node} :
    node.isGeneric ending = true ↔
      node.kind = .genericType ∧ ending.toList <:+ (node.childText .type).toList := by
  rw [isGeneric, Bool.and_eq_true, decide_eq_true_iff, List.isSuffixOf_iff_suffix]

/-- A walk finds generic types among the generic nodes. -/
theorem Node.find_generic (ending : String) (node : Node) :
    node.walk.find? (isGeneric ending) = node.genericNodes.find? (isGeneric ending) := by
  rw [walk_eq_preorder, genericNodes, List.find?_filter]
  refine congrArg (List.find? · node.preorder) (funext fun inner => Bool.eq_iff_iff.2 ?_)
  rw [decide_eq_true_iff, is_generic_iff]
  exact ⟨fun h => ⟨decide_eq_true h.1, h⟩, And.right⟩

theorem GenericTerm.IsTree.is_vector_eq {generic : GenericTerm} {node : Node}
    (hpath : generic.path.IsWritten) (h : generic.IsTree node) :
    decide generic.IsVector = node.isGeneric "Vec" := by
  have hchars : (node.childText .type).toList = generic.path.text :=
    h.path.symm ▸ String.toList_ofList
  rw [Bool.eq_iff_iff, decide_eq_true_iff, Node.is_generic_iff, and_iff_right h.kind, hchars,
    hpath.vec_suffix_iff]
  rfl

namespace TypeTerm

variable {type : TypeTerm} {node : Node}

theorem IsTree.is_element_eq (h : type.IsTree node) : type.isElement = node.kind.isElementType := by
  cases h with
  | path hkind =>
      rcases hkind with hkind | hkind <;> rw [hkind] <;> rfl
  | lifetime hkind | primitive hkind | generic hkind | tuple hkind | array hkind | reference hkind =>
      rw [hkind]
      rfl

/-- The tree of a type has the same first vector. -/
theorem IsTree.first_vector (hwritten : type.IsWritten) (h : type.IsTree node) :
    Option.Rel GenericTerm.IsTree type.firstVector? (node.walk.find? (Node.isGeneric "Vec")) := by
  rw [Node.find_generic]
  exact find_rel (h.generics hwritten) fun generic hgeneric _ htree =>
    htree.is_vector_eq (hwritten.generic_path hgeneric)

/-- The arguments of a generic type and those of its tree have the same first element. -/
theorem GenericTerm.IsTree.element {generic : GenericTerm} (h : generic.IsTree node) :
    Option.Rel TypeTerm.IsTree (generic.arguments.find? isElement)
      (node.typeArguments.find? (·.kind.isElementType)) := by
  obtain ⟨list, hlist, harguments⟩ := h.arguments
  rw [Node.typeArguments, hlist, Option.elim_some, Node.argumentNodes, List.find?_filter]
  refine find_rel harguments.named_nodes fun argument _ inner htree => ?_
  rw [htree.is_element_eq]
  cases helement : inner.kind.isElementType with
  | true => simp [Kind.is_argument_of_element helement]
  | false => simp

/-- The tree of a type has the same element in its first vector. -/
theorem IsTree.vector_element (hwritten : type.IsWritten) (h : type.IsTree node) :
    Option.Rel IsTree type.vectorElement? node.vectorElement? := by
  unfold vectorElement? Node.vectorElement?
  generalize hvector : type.firstVector? = vector, hfound : node.walk.find? _ = found
  have hrel := h.first_vector hwritten
  rw [hvector, hfound] at hrel
  cases hrel with
  | none => exact .none
  | some htree => exact GenericTerm.IsTree.element htree

/-- The text of a tree mentions a vector if and only if a vector of the type is written with the
marker. -/
theorem IsTree.mentions_vector_iff (hwritten : type.IsWritten) (h : type.IsTree node) :
    node.mentionsVector = true ↔ ∃ generic ∈ type.generics, generic.IsMarked := by
  rw [Node.mentionsVector, occurs_in_iff, h.chars_eq]
  exact marker_infix_iff hwritten

end TypeTerm

end ProgramInterface
