import ProgramInterface.Proofs.Syntax.Preorder
import ProgramInterface.Shape.Normalize

/-!
# The cases of normalization

The shape of a type node, case by case: a primitive type is itself in every mode, and otherwise the
mode decides.
-/

namespace ProgramInterface

theorem occurs_in_iff {needle hay : List Char} :
    Text.occursIn needle hay = true ↔ needle <:+: hay := by
  induction hay with
  | nil => simp [Text.occursIn]
  | cons c rest ih => simp [Text.occursIn, ih, List.infix_cons_iff]

namespace Node

/-- The shape of a type that is a vector if its text says so. -/
def vectorShape (mode : FieldMode) (node : Node) : Shape :=
  if node.mentionsVector then .vector (node.vectorElement?.elim defaultElement (shape mode))
  else .named node.content

variable {mode : FieldMode} {node : Node}

theorem shape_primitive (h : node.kind = .primitiveType) :
    node.shape mode = .primitive node.content := by
  rw [shape.eq_def, if_pos h]

theorem shape_account (h : node.kind ≠ .primitiveType) :
    node.shape .account = .named node.content := by
  rw [shape, if_neg h]

theorem vector_shape_eq (mode : FieldMode) (node : Node) :
    (if node.mentionsVector then
      match _h : node.vectorElement? with
      | some element => Shape.vector (shape mode element)
      | none => .vector defaultElement
    else .named node.content) = node.vectorShape mode := by
  unfold vectorShape
  split
  · split <;> rename_i helement <;> rw [helement] <;> rfl
  · rfl

theorem shape_field (h : node.kind ≠ .primitiveType) :
    node.shape .field = node.vectorShape .field := by
  rw [shape, if_neg h]
  exact vector_shape_eq .field node

theorem shape_tuple (h : node.kind = .tupleType) :
    node.shape .structural = .tuple (node.argumentNodes.map (shape .structural)) := by
  rw [shape, if_neg (by simp [h])]
  simp [h]

theorem shape_option (hprimitive : node.kind ≠ .primitiveType) (htuple : node.kind ≠ .tupleType)
    (hoption : node.isGeneric "Option" = true) {argument : Node} {rest : List Node}
    (harguments : node.typeArguments = argument :: rest) :
    node.shape .structural = .option (argument.shape .structural) := by
  rw [shape, if_neg hprimitive]
  simp only [if_neg htuple, if_pos hoption]
  split
  · rename_i hnone
    rw [harguments] at hnone
    cases hnone
  · rename_i found others hsome
    rw [harguments] at hsome
    cases hsome
    rfl

theorem shape_structural (hprimitive : node.kind ≠ .primitiveType)
    (htuple : node.kind ≠ .tupleType)
    (hoption : node.isGeneric "Option" = true → node.typeArguments = []) :
    node.shape .structural = node.vectorShape .structural := by
  rw [shape, if_neg hprimitive]
  simp only [if_neg htuple]
  split
  · split
    · exact vector_shape_eq .structural node
    · rename_i found others hsome
      rw [hoption ‹_›] at hsome
      cases hsome
  · exact vector_shape_eq .structural node

/-- The ways in which structural mode reads a type node. -/
theorem shape_structural_cases (node : Node) :
    (node.kind = .primitiveType ∧ node.shape .structural = .primitive node.content) ∨
    (node.kind = .tupleType ∧
      node.shape .structural = .tuple (node.argumentNodes.map (shape .structural))) ∨
    (∃ argument ∈ node.typeArguments,
      node.shape .structural = .option (argument.shape .structural)) ∨
    (node.kind ≠ .primitiveType ∧ node.shape .structural = node.vectorShape .structural) := by
  by_cases hprimitive : node.kind = .primitiveType
  · exact .inl ⟨hprimitive, shape_primitive hprimitive⟩
  by_cases htuple : node.kind = .tupleType
  · exact .inr (.inl ⟨htuple, shape_tuple htuple⟩)
  by_cases hoption : node.isGeneric "Option" = true
  · cases harguments : node.typeArguments with
    | nil => exact .inr (.inr (.inr ⟨hprimitive, shape_structural hprimitive htuple fun _ =>
        harguments⟩))
    | cons argument rest =>
        exact .inr (.inr (.inl ⟨argument, List.mem_cons_self .., shape_option hprimitive htuple
          hoption harguments⟩))
  · exact .inr (.inr (.inr ⟨hprimitive, shape_structural hprimitive htuple fun h =>
      absurd h hoption⟩))

end Node

end ProgramInterface
