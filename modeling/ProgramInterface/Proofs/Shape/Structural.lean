import ProgramInterface.Proofs.Shape.Field

/-!
# Types in structural mode

Structural mode takes apart the types of `TypeTerm.IsLayout`: primitive types, names, vectors, options
and tuples. What it makes of a vector depends on more than its element: an element that is a tuple is not
found, and a vector is not seen unless the text of the type mentions one (`TypeTerm.seenVector`). With
this reading of vectors the shape is that of the type at every depth
(`TypeTerm.structural_layout`).
-/

namespace ProgramInterface

namespace TypeTerm

/-! ## Types that are taken apart -/

/-- Whether a type is made of primitive types and names by vectors, options and tuples. -/
inductive IsLayout : TypeTerm → Prop where
  | primitive (text : List Char) : IsLayout (.primitive text)
  | name {path : PathTerm} (hpath : path.qualifiers = []) : IsLayout (.path path)
  | wrapper {path : PathTerm} {gap text : List Char} {argument : TypeTerm}
      (hpath : path.qualifiers = [])
      (hlast : path.last = "Vec".toList ∨ path.last = "Option".toList)
      (hargument : IsLayout argument) : IsLayout (.generic path gap [argument] text)
  | tuple {elements : List TypeTerm} {text : List Char}
      (helements : ∀ element ∈ elements, IsLayout element) : IsLayout (.tuple elements text)

mutual

/-- The shape of a type that is taken apart, given what a type that is a vector is read as if its
element has some shape. -/
def layout (vector : TypeTerm → Shape → Shape) : TypeTerm → Shape
  | .primitive text => .primitive (content (.primitive text))
  | .generic spelled gap arguments text =>
    let inner := (layouts vector arguments).headD Node.defaultElement
    if spelled.last = "Option".toList then .option inner
    else vector (.generic spelled gap arguments text) inner
  | .tuple elements _ => .tuple (layouts vector elements)
  | type => .named type.content

/-- The shapes of some types that are taken apart. -/
def layouts (vector : TypeTerm → Shape → Shape) : List TypeTerm → List Shape
  | [] => []
  | type :: rest => type.layout vector :: layouts vector rest

end

/-- A vector as its element says. -/
def anyVector (_ : TypeTerm) (element : Shape) : Shape :=
  .vector element

instance (generic : GenericTerm) : Decidable generic.IsMarked :=
  inferInstanceAs (Decidable (_ ∧ _))

/-- A vector as structural mode sees it: only if its text mentions a vector, and then with its element
only if that is no tuple. -/
def seenVector (type : TypeTerm) (element : Shape) : Shape :=
  if type.generics.any (·.IsMarked) then
    .vector (if type.parts.any isElement then element else Node.defaultElement)
  else .named type.content

theorem layouts_eq_map (vector : TypeTerm → Shape → Shape) (types : List TypeTerm) :
    layouts vector types = types.map (layout vector) := by
  induction types with
  | nil => rfl
  | cons type rest ih => rw [layouts, ih, List.map_cons]

variable {type : TypeTerm} {node : Node}

theorem IsLayout.is_type (h : type.IsLayout) : type.IsType := by
  cases h <;> trivial

/-! ## Arguments and elements in trees -/

theorem IsTree.is_argument (htype : type.IsType) (h : type.IsTree node) :
    node.kind.isArgument = true := by
  cases h with
  | lifetime => exact htype.elim
  | path hkind =>
      rcases hkind with hkind | hkind <;> rw [hkind] <;> rfl
  | primitive hkind | generic hkind | tuple hkind | array hkind | reference hkind =>
      rw [hkind]
      rfl

/-- Where no lifetime is among some types, their trees are all arguments. -/
theorem filter_arguments {types : List TypeTerm} {nodes : List Node}
    (htypes : ∀ type ∈ types, type.IsType) (h : List.Forall₂ IsTree types nodes) :
    List.Forall₂ IsTree types (nodes.filter (·.kind.isArgument)) := by
  induction h with
  | nil => exact .nil
  | @cons type node types nodes htree _ ih =>
      have hargument : node.kind.isArgument = true :=
        htree.is_argument (htypes type (List.mem_cons_self ..))
      rw [List.filter_cons_of_pos (by exact hargument)]
      exact .cons htree (ih fun other hother => htypes other (List.mem_cons_of_mem _ hother))

theorem argument_nodes_of_named {types : List TypeTerm} (htypes : ∀ type ∈ types, type.IsType)
    (h : NamedNodes IsTree types node.children) : List.Forall₂ IsTree types node.argumentNodes :=
  filter_arguments htypes h.named_nodes

/-- The only argument of a generic type is that of its tree. -/
theorem type_arguments_of_wrapper {generic : GenericTerm} {argument : TypeTerm}
    (hargument : generic.arguments = [argument]) (htype : argument.IsType)
    (h : generic.IsTree node) : ∃ inner, node.typeArguments = [inner] ∧ argument.IsTree inner := by
  obtain ⟨list, hlist, harguments⟩ := h.arguments
  rw [hargument] at harguments
  have htrees := argument_nodes_of_named (by simpa using htype) harguments
  obtain ⟨inner, rest, htree, hrest, hnodes⟩ := List.forall₂_cons_left_iff.1 htrees
  rw [List.forall₂_nil_left_iff.1 hrest] at hnodes
  refine ⟨inner, ?_, htree⟩
  rw [Node.typeArguments, hlist, Option.elim_some, hnodes]

/-! ## Names without qualifiers -/

theorem is_generic_of_single {generic : GenericTerm} (hpath : generic.path.IsWritten)
    (hsingle : generic.path.qualifiers = []) (h : generic.IsTree node) (ending : String) :
    node.isGeneric ending = true ↔ ending.toList <:+ generic.path.last := by
  have hchars : (node.childText .type).toList = generic.path.last := by
    rw [h.path, String.toList_ofList, hpath.text_of_single hsingle]
  rw [Node.is_generic_iff, and_iff_right h.kind, hchars]

/-! ## Shapes -/

/-- Where related values are read alike, so are related lists. -/
theorem map_of_rel {α β γ : Type} {related : α → β → Prop} {f : α → γ} {g : β → γ} {items : List α}
    {nodes : List β} (h : List.Forall₂ related items nodes)
    (hsame : ∀ item ∈ items, ∀ node, related item node → g node = f item) :
    nodes.map g = items.map f := by
  induction h with
  | nil => rfl
  | @cons item node items nodes hrelated _ ih =>
      rw [List.map_cons, List.map_cons, hsame item (List.mem_cons_self ..) node hrelated,
        ih fun other hother => hsame other (List.mem_cons_of_mem _ hother)]

/-- A generic type called `Vec` is its own first vector. -/
theorem vector_element_of_wrapper {path : PathTerm} {gap text : List Char} {argument : TypeTerm}
    (hvector : "Vec".toList <:+ path.last) :
    (TypeTerm.generic path gap [argument] text).vectorElement? = [argument].find? isElement := by
  have hfirst : (TypeTerm.generic path gap [argument] text).firstVector? =
      some ⟨path, gap, [argument]⟩ := by
    rw [firstVector?, generics, List.find?_cons_of_pos (by exact decide_eq_true hvector)]
  rw [vectorElement?, hfirst]
  rfl

/-- A vector is read as it is seen once its element is read. -/
theorem vector_shape_of_wrapper {path : PathTerm} {gap text : List Char} {argument : TypeTerm}
    {shape : Shape} (hwritten : (TypeTerm.generic path gap [argument] text).IsWritten)
    (hvector : "Vec".toList <:+ path.last)
    (htree : (TypeTerm.generic path gap [argument] text).IsTree node)
    (hshape : ∀ inner, argument.IsTree inner → inner.shape .structural = shape) :
    node.vectorShape .structural =
      seenVector (.generic path gap [argument] text) shape := by
  have hmentions : node.mentionsVector =
      (TypeTerm.generic path gap [argument] text).generics.any (·.IsMarked) := by
    rw [Bool.eq_iff_iff, htree.mentions_vector_iff hwritten]
    simp only [List.any_eq_true, decide_eq_true_iff]
  have helement : node.vectorElement?.elim Node.defaultElement (Node.shape .structural) =
      ([argument].find? isElement).elim Node.defaultElement fun _ => shape := by
    rw [← vector_element_of_wrapper hvector]
    refine elim_of_rel (htree.vector_element hwritten) fun element inner helement hinner => ?_
    rw [vector_element_of_wrapper hvector] at helement
    have hargument := List.mem_singleton.1 (List.mem_of_find?_eq_some helement)
    exact hshape inner (hargument ▸ hinner)
  rw [Node.vectorShape, seenVector, hmentions, helement, htree.content_eq]
  cases hargument : argument.isElement <;> simp [parts, hargument]

/-- The shape of the tree of a type in structural mode is that of the type, with vectors as they are
seen. -/
theorem IsTree.structural_shape (hwritten : type.IsWritten) (hlayout : type.IsLayout)
    (h : type.IsTree node) : node.shape .structural = type.layout seenVector := by
  induction hlayout generalizing node with
  | primitive =>
      rw [Node.shape_primitive (h.is_primitive_iff.1 rfl), h.content_eq]
      rfl
  | name =>
      have hmentions : node.mentionsVector = false := by
        rw [Bool.eq_false_iff, ne_eq, h.mentions_vector_iff hwritten]
        simp [TypeTerm.generics]
      have hcontent := h.content_eq
      cases h with
      | path hkind =>
          have hplain : node.shape .structural = node.vectorShape .structural := by
            rcases hkind with hkind | hkind <;>
              exact Node.shape_structural (by simp [hkind]) (by simp [hkind])
                (by simp [Node.isGeneric, hkind])
          rw [hplain, Node.vectorShape, hmentions, hcontent]
          rfl
  | @wrapper path gap text argument hpath hlast hargument ih =>
      have hgeneric := h.to_generic
      have hpathWritten : path.IsWritten := hwritten.generic_path (List.mem_cons_self ..)
      have hinner (inner : Node) (hinner : argument.IsTree inner) :
          inner.shape .structural = argument.layout seenVector :=
        ih (hwritten.of_part (List.mem_singleton_self _)) hinner
      have hprimitive : node.kind ≠ .primitiveType := by simp [hgeneric.kind]
      have htuple : node.kind ≠ .tupleType := by simp [hgeneric.kind]
      have hoption := is_generic_of_single hpathWritten hpath hgeneric "Option"
      -- The last name of the path is `Vec` or `Option`, and never ends in both.
      rcases hlast with hvec | hopt
      · have hnot : ¬ "Option".toList <:+ path.last := hvec ▸ by decide
        rw [Node.shape_structural hprimitive htuple fun htrue => absurd (hoption.1 htrue) hnot,
          vector_shape_of_wrapper hwritten (hvec ▸ List.suffix_refl _) h hinner, layout,
          if_neg (hvec ▸ by decide)]
        rfl
      · obtain ⟨inner, harguments, htree⟩ :=
          type_arguments_of_wrapper rfl hargument.is_type hgeneric
        rw [Node.shape_option hprimitive htuple (hoption.2 (hopt ▸ List.suffix_refl _)) harguments,
          hinner inner htree, layout, if_pos hopt]
        rfl
  | @tuple elements text helements ih =>
      cases h with
      | tuple hkind _ hnamed =>
          have htrees := argument_nodes_of_named (fun element helement =>
            (helements element helement).is_type) hnamed
          have hshapes : node.argumentNodes.map (Node.shape .structural) =
              elements.map (layout seenVector) := by
            exact map_of_rel htrees fun element helement inner hinner => ih element helement
              (hwritten.of_part helement) hinner
          rw [Node.shape_tuple hkind, hshapes, layout, layouts_eq_map]

/-! ## Vectors that are seen in full -/

/-- Whether every vector at or below a type is written with the marker and has an element that is
found. -/
def HasPlainVectors (type : TypeTerm) : Prop :=
  ∀ vector ∈ type.generics, vector.IsVector →
    vector.gap = [] ∧ ∃ argument ∈ vector.arguments, argument.isElement = true

instance (type : TypeTerm) : Decidable type.HasPlainVectors :=
  inferInstanceAs (Decidable (∀ vector ∈ type.generics, vector.IsVector →
    vector.gap = [] ∧ ∃ argument ∈ vector.arguments, argument.isElement = true))

theorem HasPlainVectors.of_part {part : TypeTerm} (h : type.HasPlainVectors)
    (hpart : part ∈ type.parts) : part.HasPlainVectors :=
  fun vector hvector => h vector (mem_generics.2 (.inr ⟨part, hpart, hvector⟩))

/-- Where every vector is written with the marker and its element is found, vectors are seen as their
elements say. -/
theorem layout_of_plain (hlayout : type.IsLayout) (hplain : type.HasPlainVectors) :
    type.layout seenVector = type.layout anyVector := by
  induction hlayout with
  | primitive => rfl
  | name => rfl
  | @wrapper path gap text argument hpath hlast hargument ih =>
      have hinner := ih (hplain.of_part (List.mem_singleton_self _))
      rw [layout, layout, layouts, layouts, hinner, layouts, layouts]
      rcases hlast with hvec | hopt
      · have hmem : GenericTerm.mk path gap [argument] ∈
            (TypeTerm.generic path gap [argument] text).generics := List.mem_cons_self ..
        have hvector : (GenericTerm.mk path gap [argument]).IsVector :=
          ⟨[], hvec.symm⟩
        obtain ⟨hgap, hfound⟩ := hplain _ hmem hvector
        have hseen : (TypeTerm.generic path gap [argument] text).generics.any (·.IsMarked) = true :=
          List.any_eq_true.2 ⟨_, hmem, decide_eq_true ⟨hgap, hvector⟩⟩
        have helement : [argument].any isElement = true := by simpa using hfound
        have hnot : path.last ≠ "Option".toList := hvec ▸ by decide
        rw [if_neg hnot, if_neg hnot, seenVector, if_pos hseen, parts, if_pos helement, anyVector]
      · simp only [if_pos hopt]
  | @tuple elements text helements ih =>
      rw [layout, layout, layouts_eq_map, layouts_eq_map]
      exact congrArg Shape.tuple (List.map_congr_left fun element helement =>
        ih element helement (hplain.of_part helement))

/-- The shape of a type in structural mode is that of its syntax tree, with vectors as they are seen;
where every vector is written with the marker and its element is found, it is that of the type at every
depth. A type in front of what ends one is read as its syntax tree. -/
theorem structural_layout (hwritten : type.IsWritten) (hlayout : type.IsLayout) :
    (∀ node, type.IsTree node → node.shape .structural = type.layout seenVector ∧
      (type.HasPlainVectors → node.shape .structural = type.layout anyVector)) ∧
      ∀ depth bounds, type.text.length ≤ depth →
        Grammar.ReadsNode (Grammar.run depth (.type bounds)) type.text type.IsTree := by
  refine ⟨fun node htree => ?_, fun depth bounds hdepth =>
    Grammar.read_type hwritten hlayout.is_type hdepth bounds⟩
  have hshape := htree.structural_shape hwritten hlayout
  exact ⟨hshape, fun hplain => hshape.trans (layout_of_plain hlayout hplain)⟩

end TypeTerm

/-- An option of a vector of bytes is taken apart. -/
theorem vector_in_option_layout :
    let type := TypeTerm.applied "Option" (.applied "Vec" (.primitive "u8".toList))
    let node := appliedNode "Option" "Option<Vec<u8>>"
      (appliedNode "Vec" "Vec<u8>" ⟨.primitiveType, true, none, 0, 0, "u8", []⟩)
    type.IsWritten ∧ type.IsLayout ∧ type.IsTree node ∧ type.HasPlainVectors ∧
      node.shape .structural = .option (.vector (.primitive "u8")) := by
  intro type node
  have hwritten : type.IsWritten :=
    TypeTerm.written_applied rfl (by decide)
      (TypeTerm.written_applied rfl (by decide) (.primitive (by decide)))
  have hlayout : type.IsLayout := .wrapper rfl (.inr rfl) (.wrapper rfl (.inl rfl) (.primitive _))
  have htree : type.IsTree node := TypeTerm.is_tree_applied rfl rfl
    (TypeTerm.is_tree_applied rfl rfl (.primitive rfl rfl (by decide)))
  have hplain : type.HasPlainVectors := by
    decide
  exact ⟨hwritten, hlayout, htree, hplain,
    ((TypeTerm.structural_layout hwritten hlayout).1 node htree).2 hplain⟩

/-- A pair is no element of a vector: in structural mode a vector of pairs is one of bytes. -/
theorem vector_of_pairs_flattened :
    let pair := TypeTerm.tuple [.primitive "u8".toList, .primitive "u16".toList] "(u8,u16)".toList
    let type := TypeTerm.applied "Vec" pair
    let node := appliedNode "Vec" "Vec<(u8,u16)>" ⟨.tupleType, true, none, 0, 0, "(u8,u16)",
      [tokenNode "(", ⟨.primitiveType, true, none, 0, 0, "u8", []⟩, tokenNode ",",
        ⟨.primitiveType, true, none, 0, 0, "u16", []⟩, tokenNode ")"]⟩
    type.IsWritten ∧ type.IsLayout ∧ type.IsTree node ∧
      node.shape .structural = .vector (.primitive "u8") ∧
      type.layout TypeTerm.anyVector = .vector (.tuple [.primitive "u8", .primitive "u16"]) := by
  intro pair type node
  have hpair : pair.IsWritten := by
    have htext : Spread [['('], "u8".toList, [','], "u16".toList, [')']]
        (['('] ++ ("u8".toList ++ ([','] ++ ("u16".toList ++ [')'])))) :=
      .tight rfl <| .tight rfl <| .tight rfl <| .tight rfl <| .last _
    refine .tuple (by decide) ?_ ?_ ⟨false, htext⟩
    · simp [TypeTerm.IsType]
    · simpa using ⟨.primitive (by decide), .primitive (by decide)⟩
  have hwritten : type.IsWritten := TypeTerm.written_applied rfl (by decide) hpair
  have hlayout : type.IsLayout :=
    .wrapper rfl (.inl rfl) (.tuple (by simpa using ⟨.primitive _, .primitive _⟩))
  have htree : type.IsTree node := TypeTerm.is_tree_applied rfl rfl <| .tuple rfl rfl <|
    .token rfl (by decide) <| .named rfl (.primitive rfl rfl (by decide)) <|
    .token rfl (by decide) <| .named rfl (.primitive rfl rfl (by decide)) <|
    .token rfl (by decide) .nil
  have hshape := htree.structural_shape hwritten hlayout
  exact ⟨hwritten, hlayout, htree, hshape, rfl⟩

end ProgramInterface
