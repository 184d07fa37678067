import ProgramInterface.Catalogue.Instructions
import ProgramInterface.Grammar.SourceFile
import ProgramInterface.Proofs.Catalogue.Errors
import ProgramInterface.Proofs.Catalogue.FirstByName
import ProgramInterface.Proofs.Syntax.Places

/-!
# Catalogues of a file that grows

What items put behind those of a file add to its catalogues (`catalogues_append`): error codes of
their own, account layouts and types of new names, and instructions for their structs if the file has
an entry point and leaves no attribute over for the first of them. Nothing that was listed before
changes or moves.
-/

namespace ProgramInterface

variable {frame : Node} {front back : List Node}

/-! ## Error codes -/

theorem error_codes_append (threshold : Int) (frame : Node) (front back : List Node) :
    errorCodes threshold (frame.fileOf (front ++ back)) =
      errorCodes threshold (frame.fileOf front) ++ errorCodes threshold (frame.fileOf back) := by
  simp only [errorCodes, literalValues, Node.matching_file_append, List.filterMap_append,
    List.filter_append]

/-- The entries of both files one after the other, if both have entries. -/
theorem error_entries_append (threshold : Int) (frame : Node) (front back : List Node) :
    errorEntries? threshold (frame.fileOf (front ++ back)) =
      (errorEntries? threshold (frame.fileOf front)).bind fun entries =>
        (errorEntries? threshold (frame.fileOf back)).map (entries ++ ·) := by
  simp only [errorEntries?, error_codes_append, List.mapM_append]
  cases (errorCodes threshold (frame.fileOf front)).mapM ErrorEntry.ofCode? with
  | none => rfl
  | some entries =>
      cases (errorCodes threshold (frame.fileOf back)).mapM ErrorEntry.ofCode? <;> rfl

/-! ## Account layouts and types -/

/-- Account layouts of the second file whose names the first one has are left out. -/
theorem account_layouts_append (frame : Node) (front back : List Node) :
    accountLayouts (frame.fileOf (front ++ back)) =
      accountLayouts (frame.fileOf front) ++
        (accountLayouts (frame.fileOf back)).filter fun layout =>
          decide (layout.name ∉ (accountLayouts (frame.fileOf front)).map (·.name)) := by
  have hnames : (accountLayouts (frame.fileOf front)).map (·.name) =
      (firstByName [] ((frame.fileOf front).matching .struct)).map (·.1) := by
    rw [accountLayouts, List.map_map]
    rfl
  rw [hnames]
  simp only [accountLayouts, Node.matching_file_append, first_by_name_append, List.map_append,
    List.filter_map]
  rfl

/-- Types of the second file whose names the first one has are left out. -/
theorem type_entries_append (mode : FieldMode) (frame : Node) (front back : List Node) :
    typeEntries mode (frame.fileOf (front ++ back)) =
      typeEntries mode (frame.fileOf front) ++
        (typeEntries mode (frame.fileOf back)).filter fun entry =>
          decide (entry.name ∉ (typeEntries mode (frame.fileOf front)).map (·.name)) := by
  have hnames : (typeEntries mode (frame.fileOf front)).map (·.name) =
      (firstByName [] ((frame.fileOf front).matching .structOrEnum)).map (·.1) := by
    rw [typeEntries, List.map_map]
    rfl
  rw [hnames]
  simp only [typeEntries, Node.matching_file_append, first_by_name_append, List.map_append,
    List.filter_map]
  rfl

/-! ## Instructions -/

/-- The first function of a tree with a given name. -/
def functionNamed? (root : Node) (name : Text) : Option Node :=
  (root.matching .function).find? fun function => Text.ofString (function.childText .name) = name

theorem node_of_find_function (root : Node) (name : Text) :
    (findFunction? root name).map (·.node) = functionNamed? root name := by
  rw [functionNamed?, ← Placed.map_node_matching, List.find?_map, findFunction?]
  rfl

/-- A struct that stands for an instruction: it has a name, and an attribute above it derives both
serialization traits. -/
def Placed.isInstructionStruct (item : Placed) : Bool :=
  (item.node.child? .name).isSome && item.isSerializable

/-- The structs of a tree that stand for instructions, in source order. -/
def instructionStructs (root : Node) : List Placed :=
  ((Placed.ofRoot root).matching .struct).filter Placed.isInstructionStruct

/-- The instruction that a struct stands for. -/
def instructionFor (mode : FieldMode) (account : AccountRef) (item : Node) : Instruction :=
  ⟨instructionName (Text.ofString (item.childText .name)), [account], fieldsOf mode item⟩

theorem instruction_of_eq (mode : FieldMode) (account : AccountRef) (item : Placed) :
    instructionOf? mode account item =
      if item.isInstructionStruct then some (instructionFor mode account item.node) else none := by
  unfold instructionOf? Placed.isInstructionStruct instructionFor Node.childText
  cases item.node.child? .name <;> simp [Node.content]

/-- A program with an entry point has one instruction for each of those structs. -/
theorem instructions_eq (mode : FieldMode) (root : Node) :
    instructions mode root = (functionNamed? root entryName).elim [] fun entry =>
      (instructionStructs root).map fun item =>
        instructionFor mode (entryAccount entry) item.node := by
  rw [← node_of_find_function, instructions]
  cases findFunction? root entryName with
  | none => rfl
  | some entry =>
      show List.filterMap _ _ = List.map _ (List.filter _ _)
      rw [funext (instruction_of_eq mode (entryAccount entry.node)), ← List.filterMap_eq_map,
        List.filterMap_filter]
      rfl

theorem is_instruction_struct_detached (item : Placed) :
    item.detached.isInstructionStruct = item.isInstructionStruct := by
  unfold Placed.isInstructionStruct Placed.isSerializable
  rw [Placed.attributes_detached]
  rfl

theorem function_named_append (name : Text) (frame : Node) (front back : List Node) :
    functionNamed? (frame.fileOf (front ++ back)) name =
      (functionNamed? (frame.fileOf front) name).or
        (functionNamed? (frame.fileOf back) name) := by
  simp only [functionNamed?, Node.matching_file_append, List.find?_append]

/-- The structs of the first file come first, and the others, if no attribute is left over, are those
of the second one. -/
theorem instruction_structs_append (frame : Node) (front back : List Node) :
    ∃ later : List Node, (instructionStructs (frame.fileOf (front ++ back))).map (·.node) =
        (instructionStructs (frame.fileOf front)).map (·.node) ++ later ∧
      (Node.attributesAmong (Placed.namedBack front) = [] →
        later = (instructionStructs (frame.fileOf back)).map (·.node)) := by
  -- Neither the class of a struct nor its node is lost when its place is detached.
  have hdetached : ∀ root, (instructionStructs root).map (·.node) =
      ((((Placed.ofRoot root).matching .struct).map Placed.detached).filter
        Placed.isInstructionStruct).map (·.node) := by
    intro root
    rw [List.filter_map, List.map_map, instructionStructs]
    exact congrArg _ (List.filter_congr fun item _ => (is_instruction_struct_detached item).symm)
  obtain ⟨later, happend, hlater⟩ := Placed.matching_file_append frame front back .struct
  refine ⟨(later.filter Placed.isInstructionStruct).map (·.node), ?_, fun hlast => ?_⟩
  · rw [hdetached, hdetached, happend, List.filter_append, List.map_append]
  · rw [hdetached, hlater hlast]

/-- The last named one of some items. -/
def lastNamed? (items : List Node) : Option Node :=
  (items.filter (·.isNamed)).getLast?

/-- Whether some items end in a named one that is neither an attribute nor a comment, if in any. -/
def EndsInItem (items : List Node) : Prop :=
  ∀ last ∈ lastNamed? items, last.kind ≠ .attributeItem ∧ last.kind.isComment = false

instance (items : List Node) : Decidable (EndsInItem items) :=
  inferInstanceAs (Decidable (∀ last ∈ lastNamed? items,
    last.kind ≠ .attributeItem ∧ last.kind.isComment = false))

theorem EndsInItem.attributes_eq_nil {items : List Node} (h : EndsInItem items) :
    Node.attributesAmong (Placed.namedBack items) = [] := by
  refine Node.attributes_among_eq_nil fun last hlast => h last ?_
  rwa [Placed.namedBack, List.head?_reverse] at hlast

/-- The instructions of the second file expect the account of the first one's entry point. -/
theorem instructions_append {mode : FieldMode} {frame entry : Node} {front : List Node}
    (hentry : functionNamed? (frame.fileOf front) entryName = some entry)
    (hlast : EndsInItem front) (back : List Node) :
    instructions mode (frame.fileOf (front ++ back)) =
      instructions mode (frame.fileOf front) ++
        (instructionStructs (frame.fileOf back)).map fun item =>
          instructionFor mode (entryAccount entry) item.node := by
  obtain ⟨later, happend, hlater⟩ := instruction_structs_append frame front back
  have hmade : ∀ root, (instructionStructs root).map (fun item =>
      instructionFor mode (entryAccount entry) item.node) =
        ((instructionStructs root).map (·.node)).map
          (instructionFor mode (entryAccount entry)) := by
    intro root
    rw [List.map_map]
    rfl
  rw [instructions_eq, instructions_eq, function_named_append, hentry]
  show List.map _ _ = List.map _ _ ++ _
  rw [hmade, hmade, hmade, happend, hlater hlast.attributes_eq_nil, List.map_append]

/-- The instructions of a file stay in front, whatever is put behind its items. -/
theorem instructions_prefix (mode : FieldMode) (frame : Node) (front back : List Node) :
    instructions mode (frame.fileOf front) <+:
      instructions mode (frame.fileOf (front ++ back)) := by
  rw [instructions_eq, instructions_eq, function_named_append]
  cases functionNamed? (frame.fileOf front) entryName with
  | none => exact List.nil_prefix
  | some entry =>
      obtain ⟨later, happend, _⟩ := instruction_structs_append frame front back
      refine ⟨later.map (instructionFor mode (entryAccount entry)), ?_⟩
      have hmade := congrArg (List.map (instructionFor mode (entryAccount entry))) happend
      rw [List.map_map, List.map_append, List.map_map] at hmade
      exact hmade.symm

/-! ## All catalogues -/

/-- What items add to the catalogues of a file when they are put behind its items: their error codes,
which are shown if those of both can be; the account layouts and the types, in either mode, of names
that the file does not have; and, if the file has an entry point and does not end in an attribute or
comment, one instruction for each of their structs that derives both serialization traits, with the
account of that entry point. In every catalogue the entries of the file stay in front. -/
theorem catalogues_append (threshold : Int) (mode : FieldMode) (frame : Node)
    (front back : List Node) :
    errorEntries? threshold (frame.fileOf (front ++ back)) =
        (errorEntries? threshold (frame.fileOf front)).bind (fun entries =>
          (errorEntries? threshold (frame.fileOf back)).map (entries ++ ·)) ∧
    accountLayouts (frame.fileOf (front ++ back)) =
      accountLayouts (frame.fileOf front) ++
        (accountLayouts (frame.fileOf back)).filter (fun layout =>
          decide (layout.name ∉ (accountLayouts (frame.fileOf front)).map (·.name))) ∧
    typeEntries mode (frame.fileOf (front ++ back)) =
      typeEntries mode (frame.fileOf front) ++
        (typeEntries mode (frame.fileOf back)).filter (fun entry =>
          decide (entry.name ∉ (typeEntries mode (frame.fileOf front)).map (·.name))) ∧
    (∀ entry, functionNamed? (frame.fileOf front) entryName = some entry → EndsInItem front →
      instructions mode (frame.fileOf (front ++ back)) =
        instructions mode (frame.fileOf front) ++
          (instructionStructs (frame.fileOf back)).map fun item =>
            instructionFor mode (entryAccount entry) item.node) ∧
    instructions mode (frame.fileOf front) <+: instructions mode (frame.fileOf (front ++ back)) :=
  ⟨error_entries_append threshold frame front back, account_layouts_append frame front back,
    type_entries_append mode frame front back,
    fun _ hentry hlast => instructions_append hentry hlast back,
    instructions_prefix mode frame front back⟩

/-- A file with an entry point and a struct, and behind it a struct of the same name that derives both
serialization traits: it adds an instruction and no account layout. -/
theorem catalogues_append_shared :
    let frame : Node := default
    let front := (Grammar.sourceFile
      "fn entrypoint()\x7bassert!(a.is_writable);\x7d struct A\x7bx:u8\x7d").children
    let back := (Grammar.sourceFile
      "#[derive(BorshSerialize,BorshDeserialize)] struct A\x7by:u8\x7d").children
    (accountLayouts (frame.fileOf (front ++ back))).length = 1 ∧
      (instructionStructs (frame.fileOf back)).length = 1 ∧
      ∃ entry, functionNamed? (frame.fileOf front) entryName = some entry ∧ EndsInItem front ∧
        instructions .field (frame.fileOf (front ++ back)) =
          instructions .field (frame.fileOf front) ++
            (instructionStructs (frame.fileOf back)).map fun item =>
              instructionFor .field (entryAccount entry) item.node := by
  intro frame front back
  have hfound : (functionNamed? (frame.fileOf front) entryName).isSome = true := by decide +kernel
  obtain ⟨entry, hentry⟩ := Option.isSome_iff_exists.1 hfound
  have hlast : EndsInItem front := by decide +kernel
  exact ⟨by decide +kernel, by decide +kernel, entry, hentry, hlast,
    (catalogues_append 500 .field frame front back).2.2.2.1 entry hentry hlast⟩

end ProgramInterface
