import ProgramInterface.Proofs.Grammar.Types
import ProgramInterface.Proofs.Shape.TypeVector

/-!
# Types in field mode

Field mode decides by the text of a type whether it is a vector, and takes the element of the vector from
the tree. `TypeTerm.fieldShape` says what comes of it, with no mention of texts: a type is read as the
first vector at or below it, over and over, down to one without any (`TypeTerm.field_shape_agrees`).
-/

namespace ProgramInterface

namespace TypeTerm

/-- The text of a type. -/
def content (type : TypeTerm) : Text :=
  Text.ofString (String.ofList type.text)

/-- Whether a type is primitive. -/
def isPrimitive : TypeTerm → Bool
  | .primitive _ => true
  | _ => false

/-- The shape of a type in field mode. -/
def fieldShape (type : TypeTerm) : Shape :=
  if type.isPrimitive then .primitive type.content
  else
    match hvector : type.firstVector? with
    | none => .named type.content
    | some vector =>
      match helement : vector.arguments.find? isElement with
      | some element =>
        have := size_lt_of_argument (List.mem_of_find?_eq_some hvector)
          (List.mem_of_find?_eq_some helement)
        .vector element.fieldShape
      | none => .vector Node.defaultElement
termination_by sizeOf type

variable {type : TypeTerm} {node : Node}

theorem field_shape_primitive (h : type.isPrimitive = true) :
    type.fieldShape = .primitive type.content := by
  rw [fieldShape, if_pos h]

theorem field_shape_named (hprimitive : type.isPrimitive = false) (h : type.firstVector? = none) :
    type.fieldShape = .named type.content := by
  rw [fieldShape, if_neg (by simp [hprimitive])]
  split
  · rfl
  · rename_i vector hvector
    cases h.symm.trans hvector

theorem field_shape_vector (hprimitive : type.isPrimitive = false)
    (h : type.firstVector?.isSome = true) :
    type.fieldShape = .vector (type.vectorElement?.elim Node.defaultElement fieldShape) := by
  rw [fieldShape, if_neg (by simp [hprimitive])]
  split
  · rename_i hnone
    cases (hnone ▸ h : (none : Option GenericTerm).isSome = true)
  · rename_i vector hvector
    have helement : type.vectorElement? = vector.arguments.find? isElement := by
      rw [vectorElement?, hvector]
      rfl
    split <;> rename_i hfound <;> exact congrArg Shape.vector (by rw [helement, hfound]; rfl)

theorem IsTree.content_eq (h : type.IsTree node) : node.content = type.content :=
  congrArg Text.ofString h.text_eq

theorem IsTree.is_primitive_iff (h : type.IsTree node) :
    type.isPrimitive = true ↔ node.kind = .primitiveType := by
  cases h with
  | path hkind =>
      rcases hkind with hkind | hkind <;> simp [hkind, isPrimitive]
  | lifetime hkind | primitive hkind | generic hkind | tuple hkind | array hkind | reference hkind =>
      simp [hkind, isPrimitive]

/-- Where no white space stands behind the paths of generic types, a text mentions a vector if and only
if there is one. -/
theorem IsTree.mentions_vector_eq (hwritten : type.IsWritten)
    (htight : ∀ generic ∈ type.generics, generic.gap = []) (h : type.IsTree node) :
    node.mentionsVector = type.firstVector?.isSome := by
  rw [Bool.eq_iff_iff, h.mentions_vector_iff hwritten, firstVector?, List.find?_isSome]
  simp only [decide_eq_true_iff]
  exact exists_congr fun generic => and_congr_right fun hgeneric =>
    and_iff_right (htight generic hgeneric)

/-- Where related values are read alike, so are related options. -/
theorem elim_of_rel {α β γ : Type} {related : α → β → Prop} {f : α → γ} {g : β → γ} {default : γ}
    {a : Option α} {b : Option β} (h : Option.Rel related a b)
    (hsame : ∀ x y, a = some x → related x y → g y = f x) : b.elim default g = a.elim default f := by
  cases h with
  | none => rfl
  | some hrelated => exact hsame _ _ rfl hrelated

theorem IsTree.field_shape_eq (hwritten : type.IsWritten)
    (htight : ∀ generic ∈ type.generics, generic.gap = []) (h : type.IsTree node) :
    node.shape .field = type.fieldShape := by
  induction hsize : sizeOf type using Nat.strong_induction_on generalizing type node with
  | h size ih =>
      subst hsize
      cases hprimitive : type.isPrimitive with
      | true =>
          rw [field_shape_primitive hprimitive, ← h.content_eq]
          exact Node.shape_primitive (h.is_primitive_iff.1 hprimitive)
      | false =>
          have hkind : node.kind ≠ .primitiveType := fun hkind =>
            Bool.false_ne_true (hprimitive.symm.trans (h.is_primitive_iff.2 hkind))
          rw [Node.shape_field hkind, Node.vectorShape, h.mentions_vector_eq hwritten htight]
          cases hvector : type.firstVector?.isSome with
          | false =>
              rw [field_shape_named hprimitive (by simpa using hvector), ← h.content_eq]
              rfl
          | true =>
              rw [field_shape_vector hprimitive hvector, if_pos rfl]
              refine congrArg Shape.vector <| elim_of_rel (h.vector_element hwritten)
                fun element inner helement htree => ?_
              obtain ⟨vector, hmem, hargument⟩ := exists_vector_of_element helement
              exact ih _ (size_lt_of_vector_element helement) (hwritten.argument hmem hargument)
                (fun generic hgeneric => htight generic
                  (generics_of_argument hmem hargument generic hgeneric)) htree rfl

/-- The shape of a type in field mode is that of its syntax tree, wherever the tree stands; and a type in
front of what ends one is read as its syntax tree. -/
theorem field_shape_agrees (hwritten : type.IsWritten) (htype : type.IsType)
    (htight : ∀ generic ∈ type.generics, generic.gap = []) :
    (∀ node, type.IsTree node → node.shape .field = type.fieldShape) ∧
      ∀ depth bounds, type.text.length ≤ depth →
        Grammar.ReadsNode (Grammar.run depth (.type bounds)) type.text fun node =>
          type.IsTree node ∧ node.shape .field = type.fieldShape := by
  have hshape : ∀ node, type.IsTree node → node.shape .field = type.fieldShape := fun _ htree =>
    htree.field_shape_eq hwritten htight
  refine ⟨hshape, fun depth bounds hdepth draft gap rest hstands hrest => ?_⟩
  obtain ⟨node, hread, hnamed, htree⟩ :=
    Grammar.read_type hwritten htype hdepth bounds draft gap rest hstands hrest
  exact ⟨node, hread, hnamed, htree, hshape node htree⟩

end TypeTerm

/-- An option of a vector of bytes is a vector of them in field mode, also as it is read. -/
theorem vector_in_option_shape :
    let type := TypeTerm.applied "Option" (.applied "Vec" (.primitive "u8".toList))
    let node := appliedNode "Option" "Option<Vec<u8>>"
      (appliedNode "Vec" "Vec<u8>" ⟨.primitiveType, true, none, 0, 0, "u8", []⟩)
    let draft : Draft := ⟨"Option<Vec<u8>>, limit: u64".toList, 0, 0, [], [], 28⟩
    type.IsWritten ∧ type.IsType ∧ (∀ generic ∈ type.generics, generic.gap = []) ∧
      type.IsTree node ∧ type.fieldShape = .vector (.primitive "u8") ∧
      node.shape .field = type.fieldShape ∧
      ∃ inner last, Grammar.run 15 (.type true) draft = some ((), last) ∧
        last.rest = ", limit: u64".toList ∧ last.done = [inner] ∧
        inner.shape .field = .vector (.primitive "u8") := by
  intro type node draft
  have hwritten : type.IsWritten :=
    TypeTerm.written_applied rfl (by decide)
      (TypeTerm.written_applied rfl (by decide) (.primitive (by decide)))
  have htight : ∀ generic ∈ type.generics, generic.gap = [] := by
    simp [type, TypeTerm.applied, TypeTerm.generics, TypeTerm.genericsOfAll]
  have htree : type.IsTree node :=
    TypeTerm.is_tree_applied rfl rfl (TypeTerm.is_tree_applied rfl rfl (.primitive rfl rfl (by decide)))
  have helement : type.vectorElement? = some (.primitive "u8".toList) := rfl
  have hshape : type.fieldShape = .vector (.primitive "u8") := by
    rw [TypeTerm.field_shape_vector rfl rfl, helement, Option.elim_some,
      TypeTerm.field_shape_primitive rfl]
    rfl
  have hends : Grammar.Closes ", limit: u64".toList := ⟨',', by decide, rfl⟩
  have hstands : draft.Stands type.text [] ", limit: u64".toList :=
    ⟨rfl, rfl, by decide, List.forall_mem_nil _, hends.ends_path.stops⟩
  obtain ⟨hall, hreads⟩ := TypeTerm.field_shape_agrees hwritten trivial htight
  obtain ⟨inner, hread, _, _, hinner⟩ := hreads 15 true (by decide) draft _ _ hstands hends
  exact ⟨hwritten, trivial, htight, htree, hshape, hall node htree, inner, _, hread, rfl, rfl,
    hinner.trans hshape⟩

end ProgramInterface
