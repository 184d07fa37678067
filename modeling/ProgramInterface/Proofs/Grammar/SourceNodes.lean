import ProgramInterface.Grammar.SourceFile
import ProgramInterface.Proofs.Grammar.Nodes

/-!
# The nodes of syntax trees

Every part of the grammar builds regular nodes only, if the parts inside it do, and those that may
stand inside others build at least one node. `parse_regular` draws the conclusion for whole sources:
the integer literals and names in the tree of a source are leaves that the lexical rules read, and
its comments are leaves without a role.
-/

namespace ProgramInterface

namespace Grammar

open Reader

-- The search for an instance goes through a whole part, and the parts differ much in length.
set_option synthInstance.maxSize 100000

variable (sub : SubReader) [∀ production, KeepsRegular (sub production)]
  [∀ production, Builds (sub production)]

/-! ## Shared parts -/

instance (kind : Kind) (role : Option Role) [h : Holds kind.isOther] :
    KeepsRegular (name kind role) :=
  keeps_regular_name h.holds role

instance (kind : Kind) (role : Option Role) : Builds (name kind role) := by
  unfold name
  infer_instance

instance : KeepsRegular lifetime := by
  unfold lifetime
  infer_instance

instance : KeepsRegular atLifetime := by
  unfold atLifetime
  infer_instance

instance : KeepsRegular quotedLiteral := by
  unfold quotedLiteral
  infer_instance

instance : KeepsRegular number := by
  unfold number
  infer_instance

instance : KeepsRegular plainLiteral := by
  unfold plainLiteral
  infer_instance

instance : KeepsRegular truthValue := by
  unfold truthValue
  infer_instance

instance : KeepsRegular literal := by
  unfold literal
  infer_instance

instance (role : Option Role) [Holds (Role.isOther role)] : Builds (simplePath role) := by
  unfold simplePath
  infer_instance

instance (role : Option Role) [Holds (Role.isOther role)] : KeepsRegular (simplePath role) := by
  unfold simplePath
  infer_instance

instance : KeepsRegular treeToken := by
  unfold treeToken
  refine .or_else inferInstance (.or_else inferInstance (.bind inferInstance fun text => ?_))
  split <;> infer_instance

instance : KeepsRegular (tokenTree sub) := by
  -- Inside the brackets another bracket is read as a part of its own, and all else token by token.
  have hinside : KeepsRegular (do
      match (← rest).head?.bind closingOf? with
      | some _ => sub .tokenTree
      | none => treeToken : Reader Unit) := by
    refine .bind inferInstance fun text => ?_
    split <;> infer_instance
  unfold tokenTree
  refine .bind inferInstance fun text => ?_
  split <;> infer_instance

instance : Builds (tokenTree sub) := by
  unfold tokenTree
  refine .bind_right fun text => ?_
  split <;> infer_instance

instance : KeepsRegular (attributeBody sub) := by
  unfold attributeBody
  infer_instance

instance : KeepsRegular (attributeItem sub) := by
  unfold attributeItem
  infer_instance

instance : KeepsRegular (innerAttributeItem sub) := by
  unfold innerAttributeItem
  infer_instance

instance : KeepsRegular (attributes sub) := by
  unfold attributes
  infer_instance

instance (role : Option Role) : Builds (macroInvocation sub role) := by
  unfold macroInvocation
  infer_instance

instance (role : Option Role) [Holds (Role.isOther role)] :
    KeepsRegular (macroInvocation sub role) := by
  unfold macroInvocation
  infer_instance

/-! ## Types and their parameters -/

instance (role : Role) [Holds (Role.isOther (some role))] : KeepsRegular (typeAs sub role) := by
  unfold typeAs
  infer_instance

instance : KeepsRegular (bound sub) := by
  unfold bound
  infer_instance

instance : KeepsRegular (traitBounds sub) := by
  unfold traitBounds
  infer_instance

instance : KeepsRegular (typeArgument sub) := by
  unfold typeArgument
  infer_instance

instance : KeepsRegular (typeArguments sub) := by
  unfold typeArguments
  infer_instance

instance : KeepsRegular (typeParameter sub) := by
  unfold typeParameter
  infer_instance

instance : KeepsRegular (typeParameters sub) := by
  unfold typeParameters
  infer_instance

instance : KeepsRegular (forLifetimes sub) := by
  unfold forLifetimes
  infer_instance

instance : KeepsRegular (whereClause sub) := by
  unfold whereClause
  infer_instance

instance : KeepsRegular selfParameter := by
  unfold selfParameter
  infer_instance

instance : KeepsRegular (parameter sub) := by
  unfold parameter
  infer_instance

instance : KeepsRegular (parameters sub) := by
  unfold parameters
  infer_instance

instance : KeepsRegular (returnType sub) := by
  unfold returnType
  infer_instance

instance : KeepsRegular functionModifier := by
  unfold functionModifier
  infer_instance

instance : KeepsRegular (functionPointer sub) := by
  unfold functionPointer
  infer_instance

instance : KeepsRegular (bracketedType sub) := by
  unfold bracketedType
  infer_instance

instance : KeepsRegular (pathHead sub) := by
  unfold pathHead
  infer_instance

instance : Builds (pathHead sub) := by
  unfold pathHead bracketedType
  infer_instance

instance (origin : Draft) : KeepsRegular (innerArguments sub origin) := by
  unfold innerArguments
  infer_instance

instance (origin : Draft) : KeepsRegular (pathStep sub origin) := by
  unfold pathStep
  infer_instance

instance : KeepsRegular (typePath sub) := by
  unfold typePath
  infer_instance

instance : Builds (typePath sub) := by
  unfold typePath
  infer_instance

instance : KeepsRegular (referenceType sub) := by
  unfold referenceType
  infer_instance

instance : KeepsRegular (pointerType sub) := by
  unfold pointerType
  infer_instance

instance : KeepsRegular (tupleType sub) := by
  unfold tupleType
  infer_instance

instance : KeepsRegular (arrayType sub) := by
  unfold arrayType
  infer_instance

instance : KeepsRegular (abstractType sub) := by
  unfold abstractType
  infer_instance

instance : KeepsRegular (dynamicType sub) := by
  unfold dynamicType
  infer_instance

instance : KeepsRegular (quantifiedType sub) := by
  unfold quantifiedType
  infer_instance

instance : KeepsRegular (removedBound sub) := by
  unfold removedBound
  infer_instance

instance : KeepsRegular (simpleType sub) := by
  unfold simpleType
  refine .bind inferInstance fun text => ?_
  split <;> infer_instance

instance : Builds (simpleType sub) := by
  unfold simpleType referenceType pointerType tupleType arrayType removedBound abstractType
    functionPointer quantifiedType dynamicType
  refine .bind_right fun text => ?_
  split <;> infer_instance

instance (bounds : Bool) : KeepsRegular (type sub bounds) := by
  unfold type
  infer_instance

instance (bounds : Bool) : Builds (type sub bounds) := by
  unfold type
  infer_instance

/-! ## Patterns and paths of values -/

instance : KeepsRegular (valueHead sub) := by
  unfold valueHead
  infer_instance

instance : Builds (valueHead sub) := by
  unfold valueHead bracketedType
  infer_instance

instance (origin : Draft) : KeepsRegular (valueStep sub origin) := by
  unfold valueStep turbofish
  infer_instance

instance : KeepsRegular (valuePath sub) := by
  unfold valuePath
  infer_instance

instance : KeepsRegular rangeSign := by
  unfold rangeSign
  infer_instance

instance : KeepsRegular (rangeEnd sub) := by
  unfold rangeEnd
  infer_instance

instance : KeepsRegular (rangeRest sub) := by
  unfold rangeRest
  infer_instance

instance : KeepsRegular (fieldPattern sub) := by
  unfold fieldPattern
  infer_instance

instance : KeepsRegular (patternTail sub) := by
  unfold patternTail
  infer_instance

instance : KeepsRegular (simplePattern sub) := by
  unfold simplePattern
  refine .bind inferInstance fun text => ?_
  split <;> infer_instance

instance (alternatives : Bool) : KeepsRegular (pattern sub alternatives) := by
  unfold pattern
  infer_instance

/-! ## Expressions -/

instance (structs : Bool) : KeepsRegular (atOperand structs) := by
  unfold atOperand
  refine .bind inferInstance fun text => ?_
  split <;> infer_instance

instance : KeepsRegular (condition sub) := by
  unfold condition
  infer_instance

instance : KeepsRegular (conditional sub) := by
  unfold conditional
  infer_instance

instance : KeepsRegular atBlockLike := by
  unfold atBlockLike
  infer_instance

instance : KeepsRegular continuesBlock := by
  unfold continuesBlock
  infer_instance

instance : KeepsRegular (postfixStep sub) := by
  unfold postfixStep
  infer_instance

instance (structs : Bool) : KeepsRegular (operatorStep structs) := by
  unfold operatorStep
  infer_instance

instance : KeepsRegular (matchArm sub) := by
  unfold matchArm
  infer_instance

instance : KeepsRegular (matching sub) := by
  unfold matching
  infer_instance

instance : KeepsRegular (blockLike sub) := by
  unfold blockLike
  infer_instance

instance : KeepsRegular (closureParameter sub) := by
  unfold closureParameter
  infer_instance

instance (structs : Bool) : KeepsRegular (closure sub structs) := by
  unfold closure
  infer_instance

instance (structs : Bool) : KeepsRegular (jump sub structs) := by
  unfold jump
  infer_instance

instance : KeepsRegular (initializer sub) := by
  unfold initializer
  infer_instance

instance : KeepsRegular (elements sub) := by
  unfold elements
  infer_instance

instance : KeepsRegular atClosure := by
  unfold atClosure
  infer_instance

instance (structs : Bool) : KeepsRegular (atom sub structs) := by
  unfold atom
  infer_instance

instance : KeepsRegular (prefixStep sub) := by
  unfold prefixStep
  refine .bind inferInstance fun text => ?_
  split <;> infer_instance

instance (structs : Bool) : KeepsRegular (wholeOperand sub structs) := by
  unfold wholeOperand
  infer_instance

instance (structs : Bool) : KeepsRegular (operands sub structs) := by
  unfold operands
  infer_instance

instance (structs : Bool) : KeepsRegular (expression sub structs) := by
  unfold expression
  infer_instance

instance : KeepsRegular (blockLed sub) := by
  unfold blockLed
  infer_instance

instance : KeepsRegular (armValue sub) := by
  unfold armValue
  infer_instance

instance : Builds (blockLed sub) := by
  unfold blockLed expression
  infer_instance

instance : Builds (armValue sub) := by
  unfold armValue
  infer_instance

/-! ## Items and statements -/

instance : KeepsRegular visibility := by
  unfold visibility
  infer_instance

instance : KeepsRegular stepOver := by
  unfold stepOver
  infer_instance

instance : KeepsRegular closingBrace := by
  unfold closingBrace
  infer_instance

instance : KeepsRegular stepToComma := by
  unfold stepToComma
  infer_instance

instance (part : Reader Unit) [KeepsRegular part] : KeepsRegular (braced part) := by
  unfold braced
  infer_instance

instance : KeepsRegular (fieldDeclaration sub) := by
  unfold fieldDeclaration
  infer_instance

instance : KeepsRegular (fieldDeclarationList sub) := by
  unfold fieldDeclarationList
  infer_instance

instance : KeepsRegular (orderedFieldDeclarationList sub) := by
  unfold orderedFieldDeclarationList
  infer_instance

instance : KeepsRegular (enumVariant sub) := by
  unfold enumVariant
  infer_instance

instance : KeepsRegular (enumVariantList sub) := by
  unfold enumVariantList
  infer_instance

instance (kind : Kind) [Holds kind.isOther] : KeepsRegular (nameAndParameters sub kind) := by
  unfold nameAndParameters
  infer_instance

instance : KeepsRegular (functionEnd sub) := by
  unfold functionEnd
  infer_instance

instance : GivesOther (functionEnd sub) := by
  unfold functionEnd
  infer_instance

instance : KeepsRegular (function sub) := by
  unfold function
  infer_instance

instance : GivesOther (function sub) := by
  unfold function
  infer_instance

instance : KeepsRegular (struct sub) := by
  unfold struct
  infer_instance

instance : GivesOther (struct sub) := by
  unfold struct
  infer_instance

instance : KeepsRegular (union sub) := by
  unfold union
  infer_instance

instance : GivesOther (union sub) := by
  unfold union
  infer_instance

instance : KeepsRegular (enum sub) := by
  unfold enum
  infer_instance

instance : GivesOther (enum sub) := by
  unfold enum
  infer_instance

instance : KeepsRegular (typeAlias sub) := by
  unfold typeAlias
  infer_instance

instance : GivesOther (typeAlias sub) := by
  unfold typeAlias
  infer_instance

instance : KeepsRegular (constant sub) := by
  unfold constant
  infer_instance

instance : GivesOther (constant sub) := by
  unfold constant
  infer_instance

instance : KeepsRegular useToken := by
  unfold useToken
  refine .bind inferInstance fun text => ?_
  split <;> infer_instance

instance : KeepsRegular useDeclaration := by
  unfold useDeclaration
  infer_instance

instance : GivesOther useDeclaration := by
  unfold useDeclaration
  infer_instance

instance : KeepsRegular externalLibrary := by
  unfold externalLibrary
  infer_instance

instance : GivesOther externalLibrary := by
  unfold externalLibrary
  infer_instance

instance : KeepsRegular (letDeclaration sub) := by
  unfold letDeclaration
  infer_instance

instance : KeepsRegular (macroDefinition sub) := by
  unfold macroDefinition
  infer_instance

instance : KeepsRegular (declarationList sub) := by
  unfold declarationList
  infer_instance

instance : KeepsRegular (module sub) := by
  unfold module
  infer_instance

instance : GivesOther (module sub) := by
  unfold module
  infer_instance

instance : KeepsRegular (traitItem sub) := by
  unfold traitItem
  infer_instance

instance : GivesOther (traitItem sub) := by
  unfold traitItem
  infer_instance

instance : KeepsRegular (implItem sub) := by
  unfold implItem
  infer_instance

instance : GivesOther (implItem sub) := by
  unfold implItem
  infer_instance

instance : KeepsRegular (externalBlock sub) := by
  unfold externalBlock
  infer_instance

instance : GivesOther (externalBlock sub) := by
  unfold externalBlock
  infer_instance

instance : KeepsRegular (item sub) := by
  unfold item
  infer_instance

instance : Builds (item sub) := by
  unfold item
  infer_instance

instance : KeepsRegular (declaration sub) := by
  unfold declaration
  infer_instance

instance : Builds (declaration sub) := by
  unfold declaration innerAttributeItem attributeItem letDeclaration macroDefinition
  infer_instance

instance : KeepsRegular (expressionStatement sub) := by
  unfold expressionStatement
  infer_instance

instance : KeepsRegular goesOn := by
  unfold goesOn
  infer_instance

instance : KeepsRegular (macroStatement sub) := by
  unfold macroStatement
  infer_instance

instance : KeepsRegular (statement sub) := by
  unfold statement
  infer_instance

instance : KeepsRegular (block sub) := by
  unfold block
  infer_instance

/-! ## Whole sources -/

instance (production : Production) : KeepsRegular (part sub production) := by
  cases production with
  | tokenTree => exact inferInstanceAs (KeepsRegular (tokenTree sub))
  | type bounds => exact inferInstanceAs (KeepsRegular (type sub bounds))
  | pattern alternatives => exact inferInstanceAs (KeepsRegular (pattern sub alternatives))
  | expression structs => exact inferInstanceAs (KeepsRegular (expression sub structs))
  | armValue => exact inferInstanceAs (KeepsRegular (armValue sub))
  | block => exact inferInstanceAs (KeepsRegular (block sub))
  | declaration => exact inferInstanceAs (KeepsRegular (declaration sub))

instance (production : Production) : Builds (part sub production) := by
  cases production with
  | tokenTree => exact inferInstanceAs (Builds (tokenTree sub))
  | type bounds => exact inferInstanceAs (Builds (type sub bounds))
  | pattern alternatives => exact inferInstanceAs (Builds (branch .pattern none _))
  | expression structs => exact inferInstanceAs (Builds (branch .expression none _))
  | armValue => exact inferInstanceAs (Builds (armValue sub))
  | block => exact inferInstanceAs (Builds (branch .block none _))
  | declaration => exact inferInstanceAs (Builds (declaration sub))

/-- By induction on the depth of parts inside each other. -/
theorem regular_run (depth : Nat) (production : Production) :
    KeepsRegular (run depth production) ∧ Builds (run depth production) := by
  induction depth generalizing production with
  | zero =>
      exact ⟨inferInstanceAs (KeepsRegular (refuse : Reader Unit)),
        inferInstanceAs (Builds (refuse : Reader Unit))⟩
  | succ depth ih =>
      have hkeeps : ∀ production, KeepsRegular (run depth production) := fun p => (ih p).1
      have hbuilds : ∀ production, Builds (run depth production) := fun p => (ih p).2
      exact ⟨inferInstanceAs (KeepsRegular (part (run depth) production)),
        inferInstanceAs (Builds (part (run depth) production))⟩

instance (depth : Nat) (production : Production) : KeepsRegular (run depth production) :=
  (regular_run depth production).1

instance (depth : Nat) (production : Production) : Builds (run depth production) :=
  (regular_run depth production).2

theorem interpreter_line_eq_some {draft next : Draft} {result : Unit}
    (h : interpreterLine draft = some (result, next)) :
    ∃ n, next = draft.push .token true none n := by
  unfold interpreterLine at h
  split at h
  · split at h
    · cases h
    · cases h
      exact ⟨_, rfl⟩
  · cases h

instance : KeepsRegular interpreterLine where
  keeps hread h := by
    obtain ⟨n, rfl⟩ := interpreter_line_eq_some hread
    exact h.push true n rfl (Draft.regular_leaf_of_other rfl rfl true n _)
  filled hread _ := by
    obtain ⟨n, rfl⟩ := interpreter_line_eq_some hread
    exact Draft.push_ne_nil _ _ _ _ _

instance (depth : Nat) : KeepsRegular (statements depth) := by
  unfold statements
  infer_instance

theorem regular_draft_of (chars : List Char) : (draftOf chars).Regular := by
  have hstart (draft : Draft) (hpending : draft.pending = []) (hdone : draft.done = []) :
      draft.skipGap.Regular := by
    have hgap : draft.skipGap.done = [] := (Draft.done_skip_gap_from _ _).trans hdone
    refine ⟨?_, by simp [hgap]⟩
    rw [hgap, ← hdone]
    exact Draft.regular_skip_gap_from _ (by simp [hpending, hdone])
  unfold draftOf
  split <;> exact hstart _ rfl rfl

theorem regular_source_file (source : String) : (sourceFile source).Regular := by
  refine Node.Everywhere.iff_children.2 ⟨.of_other rfl rfl, fun child hchild => ?_⟩
  simp only [sourceFile] at hchild
  split at hchild
  · rename_i draft hread
    have hdraft : draft.Regular := KeepsRegular.keeps hread (regular_draft_of source.toList)
    exact hdraft.of_flush child (List.mem_reverse.1 hchild)
  · simp at hchild

end Grammar

/-- The tree of a source is regular: what stands in it as an integer literal or a name was read as
one, and its comments hang apart from everything else. -/
theorem parse_regular {source : Source} {root : Node} (h : source.parse = .ok root) :
    root.Regular := by
  unfold Source.parse at h
  cases hdecode : source.decode with
  | error fault => simp [hdecode, Except.map] at h
  | ok text =>
      simp only [hdecode, Except.map, Except.ok.injEq] at h
      exact h ▸ Grammar.regular_source_file text

/-- Whatever stands in the tree of a source as an integer literal was read as one. -/
theorem parse_literals_read {source : Source} {root : Node} (h : source.parse = .ok root) :
    root.LiteralsRead :=
  (parse_regular h).literals_read

end ProgramInterface
