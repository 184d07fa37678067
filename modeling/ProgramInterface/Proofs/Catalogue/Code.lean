import ProgramInterface.Catalogue.Errors
import ProgramInterface.Catalogue.Instructions
import ProgramInterface.Catalogue.Types
import ProgramInterface.Proofs.Shape.Normalize
import ProgramInterface.Proofs.Syntax.Code

/-!
# Catalogues read code

Each reader of a syntax tree passes over comments in a way of its own: by the kinds it looks for, by
the roles of children, or by leaving comments out. All of them read the same from the code of a node as
from the node: shapes (`shape_code`), fields (`fields_of_code`), the bodies of types
(`type_body_of_code`), the flags of the account (`entry_account_code`) and the values of literals
(`literal_values_code`).
-/

namespace ProgramInterface

namespace Node

variable {node : Node} {amongTypes : Bool}

/-! ## Shapes -/

theorem content_code (h : node.keepsText amongTypes = true) :
    (node.code amongTypes).content = node.content := by
  rw [content, text_code h, content]

theorem is_generic_code (h : node.Tidy) (ending : String) (amongTypes : Bool) :
    (node.code amongTypes).isGeneric ending = node.isGeneric ending := by
  rw [isGeneric, isGeneric, kind_code, child_text_code h (.inr rfl)]

/-- The arguments of a generic type are types among types. -/
theorem type_arguments_code (h : node.Tidy) (amongTypes : Bool) :
    (node.code amongTypes).typeArguments = node.typeArguments.map (code true) := by
  rw [typeArguments, typeArguments, child_code h]
  cases harguments : node.child? .typeArguments with
  | none => rfl
  | some arguments =>
      have hrole : arguments.role = some .typeArguments := by
        simpa using List.find?_some harguments
      have hholds : arguments.holdsTypes = true := by simp [holdsTypes, hrole]
      show (arguments.code _).argumentNodes = arguments.argumentNodes.map (code true)
      rw [argument_nodes_code, hholds]

/-- Whether the shapes of the types among types that are smaller than a node are those of their code. -/
def SmallerShaped (mode : FieldMode) (node : Node) : Prop :=
  ∀ smaller : Node, smaller.size < node.size → smaller.Tidy → smaller.keepsText true = true →
    (smaller.code true).shape mode = smaller.shape mode

theorem SmallerShaped.argument {mode : FieldMode} {argument : Node} (h : node.SmallerShaped mode)
    (hnode : node.Tidy) (hargument : argument ∈ node.argumentNodes) :
    (argument.code true).shape mode = argument.shape mode := by
  have hsize := size_lt_of_mem_argumentNodes hargument
  simp only [argumentNodes, namedChildren, List.mem_filter] at hargument
  obtain ⟨⟨hchild, hnamed⟩, hkind⟩ := hargument
  exact h argument hsize (hnode.child hchild) (by simp [keepsText, hnamed, hkind])

theorem SmallerShaped.type_argument {mode : FieldMode} {argument : Node}
    (h : node.SmallerShaped mode) (hnode : node.Tidy) (hargument : argument ∈ node.typeArguments) :
    (argument.code true).shape mode = argument.shape mode := by
  unfold typeArguments at hargument
  cases harguments : node.child? .typeArguments with
  | none => simp [harguments] at hargument
  | some arguments =>
      -- The list of the arguments is smaller, so what is said of the node is said of it too.
      have hsize := size_lt_of_mem_children (List.mem_of_find?_eq_some harguments)
      have hinner : arguments.SmallerShaped mode := fun smaller hsmaller =>
        h smaller (Nat.lt_trans hsmaller hsize)
      exact hinner.argument (hnode.child_as harguments) (by simpa [harguments] using hargument)

/-- The elements of vectors are found in the code, and have their shapes there. -/
theorem vector_element_code {mode : FieldMode} (h : node.Tidy) (hsmaller : node.SmallerShaped mode)
    (amongTypes : Bool) : (node.code amongTypes).vectorElement?.map (shape mode) =
      node.vectorElement?.map (shape mode) := by
  have hjoin : ∀ root : Node, root.vectorElement?.map (shape mode) =
      ((root.preorder.find? (isGeneric "Vec")).map fun generic =>
        (generic.typeArguments.find? (·.kind.isElementType)).map (shape mode)).join := by
    intro root
    rw [vectorElement?, walk_eq_preorder]
    cases root.preorder.find? (isGeneric "Vec") <;> rfl
  rw [hjoin, hjoin, find_map_code h]
  refine .of_class (fun comment hcomment => ?_) (fun generic hgeneric => ?_)
    (fun generic hgeneric _ inner => ?_)
  · have hkind : comment.kind ≠ .genericType := Kind.ne_of_comment hcomment rfl
    simp [isGeneric, hkind]
  · exact is_generic_code (h.below hgeneric) _
  · have htidy := h.below hgeneric
    have hkind : (fun argument : Node => argument.kind.isElementType) ∘ code true =
        fun argument => argument.kind.isElementType := by
      funext argument
      simp
    have hsize : generic.size ≤ node.size := size_le_of_mem_walk (walk_eq_preorder node ▸ hgeneric)
    have hshaped : generic.SmallerShaped mode := fun smaller hless =>
      hsmaller smaller (Nat.lt_of_lt_of_le hless hsize)
    rw [type_arguments_code htidy, List.find?_map, Option.map_map, hkind]
    exact congrArg some (Option.map_congr fun element helement =>
      hshaped.type_argument htidy (List.mem_of_find?_eq_some helement))

theorem vector_shape_code {mode : FieldMode} (h : node.Tidy)
    (hkept : node.keepsText amongTypes = true) (hsmaller : node.SmallerShaped mode) :
    (node.code amongTypes).vectorShape mode = node.vectorShape mode := by
  have helim : ∀ element : Option Node, element.elim defaultElement (shape mode) =
      (element.map (shape mode)).getD defaultElement := by
    intro element
    cases element <;> rfl
  have hmentions : (node.code amongTypes).mentionsVector = node.mentionsVector := by
    rw [mentionsVector, text_code hkept, mentionsVector]
  rw [vectorShape, hmentions, helim, vector_element_code h hsmaller, ← helim, content_code hkept,
    vectorShape]

/-- In structural mode a type has the shape of its code if the types in it have. -/
theorem structural_shape_code (h : node.Tidy) (hkept : node.keepsText amongTypes = true)
    (hsmaller : node.SmallerShaped .structural) (hprimitive : node.kind ≠ .primitiveType) :
    (node.code amongTypes).shape .structural = node.shape .structural := by
  have hprimitive' : (node.code amongTypes).kind ≠ .primitiveType := by rwa [kind_code]
  by_cases htuple : node.kind = .tupleType
  · have hholds : node.holdsTypes = true := by simp [holdsTypes, htuple]
    rw [shape_tuple (by rwa [kind_code]), shape_tuple htuple, argument_nodes_code, hholds,
      List.map_map]
    exact congrArg _ (List.map_congr_left fun element helement => hsmaller.argument h helement)
  · have htuple' : (node.code amongTypes).kind ≠ .tupleType := by rwa [kind_code]
    have hgeneric := is_generic_code h "Option" amongTypes
    have harguments := type_arguments_code h amongTypes
    by_cases hoption : node.isGeneric "Option" = true ∧ node.typeArguments ≠ []
    · obtain ⟨hoption, hsome⟩ := hoption
      obtain ⟨argument, rest, hrest⟩ := List.exists_cons_of_ne_nil hsome
      rw [hrest, List.map_cons] at harguments
      rw [shape_option hprimitive' htuple' (hgeneric.trans hoption) harguments,
        shape_option hprimitive htuple hoption hrest,
        hsmaller.type_argument h (hrest ▸ List.mem_cons_self ..)]
    · have hnone : node.isGeneric "Option" = true → node.typeArguments = [] := by
        intro hgeneric
        by_contra hsome
        exact hoption ⟨hgeneric, hsome⟩
      rw [shape_structural hprimitive' htuple', shape_structural hprimitive htuple hnone,
        vector_shape_code h hkept hsmaller]
      intro hgeneric'
      rw [harguments, hnone (hgeneric ▸ hgeneric')]
      rfl

/-- A type has the shape of its code. -/
theorem shape_code (mode : FieldMode) (node : Node) (h : node.Tidy) (amongTypes : Bool)
    (hkept : node.keepsText amongTypes = true) :
    (node.code amongTypes).shape mode = node.shape mode := by
  induction node using size_induction generalizing amongTypes with
  | step node ih =>
      have hsmaller : node.SmallerShaped mode := fun smaller hsize htidy hkept =>
        ih smaller hsize htidy true hkept
      by_cases hprimitive : node.kind = .primitiveType
      · rw [shape_primitive (by rwa [kind_code]), shape_primitive hprimitive, content_code hkept]
      have hprimitive' : (node.code amongTypes).kind ≠ .primitiveType := by rwa [kind_code]
      cases mode with
      | account => rw [shape_account hprimitive', shape_account hprimitive, content_code hkept]
      | field =>
          rw [shape_field hprimitive', shape_field hprimitive, vector_shape_code h hkept hsmaller]
      | structural => exact structural_shape_code h hkept hsmaller hprimitive

end Node

/-! ## Fields -/

section Fields

variable {node : Node}

open Node

theorem declared_field_code (mode : FieldMode) (h : node.Tidy) (amongTypes : Bool) :
    declaredField? mode (node.code amongTypes) = declaredField? mode node := by
  unfold declaredField?
  rw [child_code h, child_code h]
  cases hname : node.child? .name with
  | none => rfl
  | some name =>
      cases htype : node.child? .type with
      | none => rfl
      | some type =>
          simp only [Option.map_some, kind_code]
          rw [content_code (keeps_text_of_role (.inl rfl) hname _),
            shape_code mode type (h.child_as htype) _ (keeps_text_of_role (.inr rfl) htype _)]

theorem positioned_field_code (mode : FieldMode) (index : Nat) (h : node.Tidy)
    (hrole : node.role = some .type) (amongTypes : Bool) :
    positionedField? mode index (node.code amongTypes) = positionedField? mode index node := by
  unfold positionedField?
  rw [kind_code, shape_code mode node h _ (by simp [keepsText, hrole])]

theorem fields_of_body_code (mode : FieldMode) (h : node.Tidy) (amongTypes : Bool) :
    fieldsOfBody mode (node.code amongTypes) = fieldsOfBody mode node := by
  unfold fieldsOfBody
  rw [kind_code]
  split
  · -- Declarations are looked for at any depth.
    exact matching_code .field h (fun declaration hdeclaration _ amongTypes =>
      declared_field_code mode (h.below hdeclaration) amongTypes) amongTypes
  · rw [children_as_code h, List.zipIdx_map, List.map_map]
    refine congrArg (List.filterMap id) (List.map_congr_left fun ⟨type, index⟩ htype => ?_)
    obtain ⟨hmem, hrole⟩ := List.mem_filter.1 (List.fst_mem_of_mem_zipIdx htype)
    exact positioned_field_code mode index (h.child hmem) (by simpa using hrole) _
  · rfl

/-- An item has the fields of its code. -/
theorem fields_of_code (mode : FieldMode) (h : node.Tidy) (amongTypes : Bool) :
    fieldsOf mode (node.code amongTypes) = fieldsOf mode node := by
  rw [fieldsOf, fieldsOf, child_code h]
  cases hbody : node.child? .body with
  | none => rfl
  | some body => exact fields_of_body_code mode (h.child_as hbody) _

theorem variant_of_code (mode : FieldMode) (h : node.Tidy) (amongTypes : Bool) :
    variantOf mode (node.code amongTypes) = variantOf mode node := by
  rw [variantOf, variantOf, child_text_code h (.inl rfl), child_code h]
  cases hbody : node.child? .body with
  | none => rfl
  | some body =>
      rw [Option.map_some, Option.map_some, Option.map_some,
        fields_of_body_code mode (h.child_as hbody)]

theorem variants_of_code (mode : FieldMode) (h : node.Tidy) (amongTypes : Bool) :
    variantsOf mode (node.code amongTypes) = variantsOf mode node := by
  rw [variantsOf, variantsOf, child_code h]
  cases hbody : node.child? .body with
  | none => rfl
  | some body =>
      have hcomment : ∀ kind : Kind, kind.isComment = true →
          decide (kind = .enumVariant) = false := fun kind hkind =>
        decide_eq_false (Kind.ne_of_comment hkind rfl)
      simp only [Option.map_some, Option.elim_some]
      rw [named_children_code (p := fun kind => decide (kind = .enumVariant)) hcomment,
        List.map_map]
      refine List.map_congr_left fun variant hvariant => ?_
      simp only [namedChildren, List.mem_filter] at hvariant
      exact variant_of_code mode ((h.child_as hbody).child hvariant.1.1) _

/-- The type of an item is made of what that of its code is made of. -/
theorem type_body_of_code (mode : FieldMode) (h : node.Tidy) (amongTypes : Bool) :
    typeBodyOf mode (node.code amongTypes) = typeBodyOf mode node := by
  rw [typeBodyOf, typeBodyOf, kind_code, variants_of_code mode h, fields_of_code mode h]

end Fields

/-! ## Texts -/

section Texts

variable {node : Node}

open Node

theorem mentions_code {amongTypes : Bool} (h : node.keepsText amongTypes = true) (word : String) :
    (node.code amongTypes).mentions word = node.mentions word := by
  rw [mentions, text_code h, mentions]

theorem keeps_text_of_match {query : QueryKind} (hquery : query = .macroCall ∨ query = .integer)
    (h : query.isMatch node = true) {amongTypes : Bool} : node.keepsText amongTypes = true := by
  rcases hquery with rfl | rfl <;>
    simp_all [QueryKind.isMatch, QueryKind.nodeKinds, keepsText]

theorem derives_serialization_code (h : node.kind = .attributeItem) (amongTypes : Bool) :
    (node.code amongTypes).derivesSerialization = node.derivesSerialization := by
  have hkept : node.keepsText amongTypes = true := by simp [keepsText, h]
  simp only [derivesSerialization, mentions_code hkept]

theorem asserts_code (word : String) (h : node.Tidy) (amongTypes : Bool) :
    asserts word (node.code amongTypes) = asserts word node := by
  -- The calls are asked one by one, so what counts is what each of them answers.
  have hcalls : ∀ (scope : Node), scope.Tidy → ∀ amongTypes,
      ((scope.code amongTypes).matching .macroCall).any (fun call =>
        call.mentions "assert!" && call.mentions word) =
      (scope.matching .macroCall).any fun call =>
        call.mentions "assert!" && call.mentions word := by
    intro scope hscope amongTypes
    have hanswers := matching_code .macroCall
      (f := fun call => some (call.mentions "assert!" && call.mentions word)) hscope
      (fun call _ hmatch amongTypes => by
        simp only [mentions_code (keeps_text_of_match (.inl rfl) hmatch)]) amongTypes
    rw [List.filterMap_eq_map'] at hanswers
    simpa [List.any_map, Function.comp_def] using congrArg (List.any · id) hanswers
  rw [asserts, asserts, child_code h]
  cases hbody : node.child? .body with
  | none => exact hcalls node h amongTypes
  | some body => exact hcalls body (h.child_as hbody) _

/-- An entry point expects the account that its code expects. -/
theorem entry_account_code (h : node.Tidy) (amongTypes : Bool) :
    entryAccount (node.code amongTypes) = entryAccount node := by
  rw [entryAccount, entryAccount, asserts_code _ h, asserts_code _ h]

/-- The value of a node that is an integer literal. -/
def Node.literalValue? (node : Node) : Option Int :=
  if QueryKind.integer.isMatch node then IntegerLiteral.value? (Text.ofString node.text) else none

theorem literal_values_eq (root : Node) :
    literalValues root = root.preorder.filterMap Node.literalValue? := by
  rw [literalValues, matching_eq_filter_preorder, List.filterMap_filter]
  rfl

theorem reads_code_literal (nodes : List Node) : ReadsCode Node.literalValue? nodes := by
  refine .of_class (fun _ => is_match_comment _) (fun _ _ _ => is_match_code _ _ _)
    fun literal _ hmatch amongTypes => ?_
  rw [text_code (keeps_text_of_match (.inr rfl) hmatch)]

/-- The literals of a tree have the values that those of its code have. -/
theorem literal_values_code (h : node.Tidy) (amongTypes : Bool) :
    literalValues (node.code amongTypes) = literalValues node := by
  rw [literal_values_eq, literal_values_eq, filter_map_code amongTypes node h (reads_code_literal _)]

end Texts

end ProgramInterface
