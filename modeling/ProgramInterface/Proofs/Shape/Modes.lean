import ProgramInterface.Proofs.Shape.Reading
import ProgramInterface.Proofs.Shape.TypeTree

/-!
# Field mode and structural mode

Structural mode takes tuples and options apart, which field mode leaves as they are, and reads all other
types alike. So the two modes read a type alike if no tuple and no option lies in it, and also if none is
left in what structural mode makes of it (`structural_extends_field`): a tuple or an option that is not
reached, because it stands in a type that is neither, makes no difference.
-/

namespace ProgramInterface

/-- Whether neither a tuple nor an option stands in a shape, at any depth. -/
def Shape.IsUndivided : Shape → Prop
  | primitive _ => True
  | named _ => True
  | vector element => element.IsUndivided
  | tuple _ => False
  | option _ => False

theorem Shape.undivided_vectors {count : Nat} {leaf : Shape} (h : leaf.IsLeaf) :
    (vectors count leaf).IsUndivided := by
  induction count with
  | zero => cases leaf <;> trivial
  | succ count ih => exact ih

namespace Node

/-- Whether no tuple and no option lies at or below a node. -/
def IsPlain (node : Node) : Prop :=
  ∀ inner ∈ node.preorder, inner.kind ≠ .tupleType ∧ inner.isGeneric "Option" = false

instance (node : Node) : Decidable node.IsPlain :=
  inferInstanceAs (Decidable (∀ inner ∈ node.preorder, _))

variable {node : Node}

theorem IsPlain.of_mem {inner : Node} (h : node.IsPlain) (hinner : inner ∈ node.preorder) :
    inner.IsPlain :=
  fun lowest hlowest => h lowest (mem_preorder_trans hlowest hinner)

/-- What may be a vector is read alike by two modes that read its element alike. -/
theorem vector_shape_congr {mode other : FieldMode}
    (h : node.mentionsVector = true → ∀ element, node.vectorElement? = some element →
      element.shape mode = element.shape other) : node.vectorShape mode = node.vectorShape other := by
  unfold vectorShape
  split
  · cases helement : node.vectorElement? with
    | none => rfl
    | some element => exact congrArg Shape.vector (h ‹_› element helement)
  · rfl

/-- The element of what is a vector because its text says so. -/
theorem undivided_element {mode : FieldMode} {element : Node}
    (h : (node.vectorShape mode).IsUndivided) (hmentions : node.mentionsVector = true)
    (helement : node.vectorElement? = some element) : (element.shape mode).IsUndivided := by
  rw [vectorShape, if_pos hmentions, helement] at h
  exact h

/-- Without a tuple or an option in its type a node is read alike in both modes. -/
theorem IsPlain.shape_eq (h : node.IsPlain) : node.shape .structural = node.shape .field := by
  induction node using size_induction with
  | step node ih =>
      by_cases hprimitive : node.kind = .primitiveType
      · rw [shape_primitive hprimitive, shape_primitive hprimitive]
      · obtain ⟨htuple, hoption⟩ := h node (mem_preorder_self node)
        have hno : node.isGeneric "Option" = true → node.typeArguments = [] := fun htrue =>
          absurd (hoption.symm.trans htrue) Bool.false_ne_true
        rw [shape_structural hprimitive htuple hno, shape_field hprimitive]
        exact vector_shape_congr fun _ element helement =>
          ih element (size_lt_of_vectorElement? helement)
            (h.of_mem (below_of_vector_element helement).mem)

/-- A shape in structural mode without a tuple or an option is the one in field mode. -/
theorem shape_eq_of_undivided (h : (node.shape .structural).IsUndivided) :
    node.shape .structural = node.shape .field := by
  induction node using size_induction with
  | step node ih =>
      rcases shape_structural_cases node with
        ⟨hprimitive, hshape⟩ | ⟨_, hshape⟩ | ⟨_, _, hshape⟩ | ⟨hprimitive, hshape⟩
      · rw [hshape, shape_primitive hprimitive]
      · rw [hshape] at h
        exact h.elim
      · rw [hshape] at h
        exact h.elim
      · rw [hshape] at h ⊢
        rw [shape_field hprimitive]
        exact vector_shape_congr fun hmentions element helement =>
          ih element (size_lt_of_vectorElement? helement)
            (undivided_element h hmentions helement)

theorem undivided_of_field (node : Node) : (node.shape .field).IsUndivided := by
  obtain ⟨count, leaf, hleaf, hshape⟩ := (node.reads_shape .field).vectors_of_field
  rw [hshape]
  exact Shape.undivided_vectors hleaf

end Node

/-- Structural mode reads a type as field mode does if no tuple and no option lies at or below its node,
and exactly if none stands in the shape that it makes of the type. -/
theorem structural_extends_field (node : Node) :
    ((∀ inner ∈ node.preorder, inner.kind ≠ .tupleType ∧ inner.isGeneric "Option" = false) →
      node.shape .structural = node.shape .field) ∧
    ((node.shape .structural).IsUndivided ↔ node.shape .structural = node.shape .field) := by
  refine ⟨fun hplain => Node.IsPlain.shape_eq hplain, Node.shape_eq_of_undivided, fun hsame => ?_⟩
  rw [hsame]
  exact node.undivided_of_field

/-- Both modes read a vector of vectors alike, and also an option that a box keeps from being taken
apart. -/
theorem structural_extends_field_nested :
    let byte : Node := ⟨.primitiveType, true, none, 0, 0, "u8", []⟩
    let nested := appliedNode "Vec" "Vec<Vec<u8>>" (appliedNode "Vec" "Vec<u8>" byte)
    let boxed := appliedNode "Box" "Box<Option<u8>>" (appliedNode "Option" "Option<u8>" byte)
    nested.IsPlain ∧ nested.shape .structural = nested.shape .field ∧
      ¬ boxed.IsPlain ∧ (boxed.shape .structural).IsUndivided ∧
      boxed.shape .structural = boxed.shape .field := by
  intro byte nested boxed
  have hnested : nested.IsPlain := by decide
  have hboxed : boxed.shape .structural = .named boxed.content := by
    rw [Node.shape_structural (by decide) (by decide) (fun h => absurd h (by decide)),
      Node.vectorShape, if_neg (by decide)]
  have hundivided : (boxed.shape .structural).IsUndivided := by
    rw [hboxed]
    trivial
  exact ⟨hnested, (structural_extends_field nested).1 hnested, by decide, hundivided,
    (structural_extends_field boxed).2.1 hundivided⟩

end ProgramInterface
