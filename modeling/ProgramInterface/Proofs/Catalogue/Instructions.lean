import Mathlib.Data.List.Nodup
import ProgramInterface.Proofs.Catalogue.Append
import ProgramInterface.Proofs.Catalogue.Types

/-!
# Instructions agree with types and accounts

Instructions are made from structs by a pass of their own, in which names do not matter, while types
and account layouts are listed by name. Where the names of structs and enumerations differ, both
passes show the same: an instruction is made for every struct that derives both serialization traits,
its arguments are the fields of the type of that name, and an account layout of that name is there
(`instructions_match_types`). What the account of all instructions allows is told by the assertions
of the first function `entrypoint`.
-/

namespace ProgramInterface

variable {root : Node}

/-! ## What instructions are made from -/

/-- Whether some items have names, and no two of them the same. -/
structure DistinctNames (items : List Node) : Prop where
  filled : [] ∉ items.map itemName
  nodup : (items.map itemName).Nodup

/-- The structs of a tree at their places, in pre-order. -/
def structPlaces (root : Node) : List Placed :=
  (Placed.ofRoot root).walk.filter (·.node.kind = .structItem)

/-- Whether the text of one attribute directly above an item names the derivation of both
serialization traits. -/
def Placed.DerivesBoth (item : Placed) : Prop :=
  ∃ marker ∈ item.attributes, ∀ word ∈ ["derive", "BorshSerialize", "BorshDeserialize"],
    word.toList <:+: marker.text.toList

/-- The first function of a tree with a given name, in pre-order. -/
def firstFunction? (root : Node) (name : Text) : Option Node :=
  root.preorder.find? fun node => node.kind = .functionItem ∧ itemName node = name

/-- Whether a macro invocation in the body of a function is an assertion that mentions a word; a
function without a body counts as its own. -/
def Asserts (word : String) (function : Node) : Prop :=
  ∃ call ∈ ((function.child? .body).getD function).preorder, call.kind = .macroInvocation ∧
    "assert!".toList <:+: call.text.toList ∧ word.toList <:+: call.text.toList

theorem mentions_iff {word : String} {node : Node} :
    node.mentions word = true ↔ word.toList <:+: node.text.toList :=
  occurs_in_iff

theorem is_serializable_iff {item : Placed} : item.isSerializable = true ↔ item.DerivesBoth := by
  simp [Placed.isSerializable, Placed.DerivesBoth, Node.derivesSerialization, mentions_iff,
    and_assoc]

instance (item : Placed) : Decidable item.DerivesBoth :=
  decidable_of_iff _ is_serializable_iff

theorem asserts_iff {word : String} {function : Node} :
    asserts word function = true ↔ Asserts word function := by
  unfold asserts Asserts
  rw [Node.matching_eq_filter_preorder]
  simp [QueryKind.isMatch, QueryKind.nodeKinds, mentions_iff]

theorem function_named_eq (root : Node) (name : Text) :
    functionNamed? root name = firstFunction? root name := by
  unfold functionNamed? firstFunction?
  rw [Node.matching_eq_filter_preorder, List.find?_filter]
  congr 1
  funext node
  have hname : Text.ofString (node.childText .name) = itemName node := rfl
  simp [QueryKind.isMatch, QueryKind.nodeKinds, hname]

theorem matching_struct_places (root : Node) :
    (Placed.ofRoot root).matching .struct = structPlaces root :=
  List.filter_congr fun item _ => by simp [QueryKind.isMatch, QueryKind.nodeKinds]

/-- The structs at their places are the structs of the tree, in the same order. -/
theorem map_node_struct_places (root : Node) :
    (structPlaces root).map (·.node) = structsOf root := by
  have hwalk : (Placed.ofRoot root).walk.map (·.node) = root.preorder :=
    Placed.map_node_walk (Placed.ofRoot root)
  rw [structsOf, ← hwalk, List.filter_map]
  rfl

/-! ## Distinct names -/

/-- With distinct names every item is the first of its name. -/
theorem DistinctNames.first_named {items : List Node} (h : DistinctNames items) {item : Node}
    (hitem : item ∈ items) : firstNamed? items (itemName item) = some item := by
  have hfound : (firstNamed? items (itemName item)).isSome = true :=
    List.find?_isSome.2 ⟨item, hitem, beq_self_eq_true _⟩
  obtain ⟨first, hfirst⟩ := Option.isSome_iff_exists.1 hfound
  have hname : itemName first = itemName item := by simpa using List.find?_some hfirst
  rw [hfirst, List.inj_on_of_nodup_map h.nodup (List.mem_of_find?_eq_some hfirst) hitem hname]

/-- An item with a name has a node for it. -/
theorem has_name_of_filled {items : List Node} (h : [] ∉ items.map itemName) {item : Node}
    (hitem : item ∈ items) : (item.child? .name).isSome = true := by
  cases hname : item.child? .name with
  | some name => rfl
  | none =>
      have hempty : itemName item = [] := by
        rw [itemName, Node.childText, hname]
        rfl
      exact absurd (List.mem_map.2 ⟨item, hitem, hempty⟩) h

theorem mem_structs_and_enums {item : Node} (h : item ∈ structsOf root) :
    item ∈ structsAndEnumsOf root := by
  obtain ⟨hbelow, hkind⟩ := List.mem_filter.1 h
  exact List.mem_filter.2 ⟨hbelow, decide_eq_true (.inl (of_decide_eq_true hkind))⟩

theorem DistinctNames.structs_filled (h : DistinctNames (structsAndEnumsOf root)) :
    [] ∉ (structsOf root).map itemName := by
  intro hempty
  obtain ⟨item, hitem, hname⟩ := List.mem_map.1 hempty
  exact h.filled (List.mem_map.2 ⟨item, mem_structs_and_enums hitem, hname⟩)

/-- If all structs have names, instructions are made from those that derive both serialization
traits. -/
theorem instruction_structs_eq (h : [] ∉ (structsOf root).map itemName) :
    instructionStructs root = (structPlaces root).filter (·.DerivesBoth) := by
  rw [instructionStructs, matching_struct_places]
  refine List.filter_congr fun item hitem => ?_
  have hstruct : item.node ∈ structsOf root :=
    map_node_struct_places root ▸ List.mem_map_of_mem hitem
  rw [Placed.isInstructionStruct, has_name_of_filled h hstruct, Bool.true_and,
    Bool.eq_iff_iff, is_serializable_iff, decide_eq_true_iff]

/-! ## Instructions -/

/-- Whether an instruction is that of a struct: it is named after it and expects an account, its
arguments are the fields of the type of that name, which is there, and so is an account layout of
that name. -/
structure FitsCatalogues (mode : FieldMode) (root : Node) (account : AccountRef) (item : Placed)
    (instruction : Instruction) : Prop where
  name : instruction.name = instructionName (itemName item.node)
  accounts : instruction.accounts = [account]
  arguments : ∀ entry ∈ typeEntries mode root, entry.name = itemName item.node →
    entry.body = .struct instruction.arguments
  type : itemName item.node ∈ (typeEntries mode root).map (·.name)
  layout : itemName item.node ∈ (accountLayouts root).map (·.name)

theorem fits_catalogues (mode : FieldMode) (h : DistinctNames (structsAndEnumsOf root))
    (account : AccountRef) {item : Placed} (hitem : item.node ∈ structsOf root) :
    FitsCatalogues mode root account item (instructionFor mode account item.node) := by
  have hlisted := mem_structs_and_enums hitem
  have hkind : item.node.kind = .structItem := of_decide_eq_true (List.mem_filter.1 hitem).2
  have hfilled : itemName item.node ≠ [] := fun hempty =>
    h.filled (List.mem_map.2 ⟨item.node, hlisted, hempty⟩)
  refine ⟨rfl, rfl, fun entry hentry hname => ?_, ?_, ?_⟩
  · obtain ⟨_, other, hfirst, hbody⟩ := mem_type_entries.1 hentry
    rw [hname, h.first_named hlisted] at hfirst
    cases hfirst
    rw [hbody, typeBodyOf, if_neg (by simp [hkind])]
    rfl
  · exact ((type_names mode root).mem_iff _).2 ⟨hfilled, List.mem_map_of_mem hlisted⟩
  · exact ((account_names root).mem_iff _).2 ⟨hfilled, List.mem_map_of_mem hitem⟩

/-- A program without an entry point has no instructions. In a tree whose structs and enumerations
have distinct names, the instructions of a program with an entry point are, in source order, those of
the structs that derive both serialization traits, each with the fields that its type has in the same
mode. All of them expect one and the same account, which may be written to or must sign if an
assertion in the entry point says so. -/
theorem instructions_match_types (mode : FieldMode) (root : Node) :
    (firstFunction? root (Text.ofString "entrypoint") = none → instructions mode root = []) ∧
    (DistinctNames (structsAndEnumsOf root) →
      ∀ entry, firstFunction? root (Text.ofString "entrypoint") = some entry →
        ∃ account : AccountRef, account.name = Text.ofString "account" ∧
          (account.isMutable = true ↔ Asserts "is_writable" entry) ∧
          (account.isSigner = true ↔ Asserts "is_signer" entry) ∧
          List.Forall₂ (FitsCatalogues mode root account)
            ((structPlaces root).filter (·.DerivesBoth)) (instructions mode root)) ∧
    (structPlaces root).map (·.node) = structsOf root := by
  have hinstructions : instructions mode root =
      (firstFunction? root (Text.ofString "entrypoint")).elim [] fun entry =>
        (instructionStructs root).map fun item =>
          instructionFor mode (entryAccount entry) item.node := by
    rw [instructions_eq, function_named_eq]
    rfl
  refine ⟨fun hnone => ?_, fun hdistinct entry hentry => ?_, map_node_struct_places root⟩
  · rw [hinstructions, hnone]
    rfl
  · refine ⟨entryAccount entry, rfl, asserts_iff, asserts_iff, ?_⟩
    rw [hinstructions, hentry, Option.elim_some, instruction_structs_eq hdistinct.structs_filled]
    refine List.forall₂_map_right_iff.2 (List.forall₂_same.2 fun item hitem => ?_)
    have hplace := (List.mem_filter.1 hitem).1
    exact fits_catalogues mode hdistinct _
      (map_node_struct_places root ▸ List.mem_map_of_mem hplace)

/-- A program with a struct inside a function, an enumeration, and an assertion in a closure. -/
theorem instructions_match_types_nested :
    let root := Grammar.sourceFile
      "fn entrypoint()\x7b#[derive(BorshSerialize,BorshDeserialize)] struct AParams(Vec<u8>);
        f(||assert!(a.is_signer));\x7d enum B\x7bC\x7d"
    DistinctNames (structsAndEnumsOf root) ∧
      ((structPlaces root).filter (·.DerivesBoth)).length = 1 ∧
      ∃ entry, firstFunction? root (Text.ofString "entrypoint") = some entry ∧
        ∃ account : AccountRef, account.isMutable = false ∧ account.isSigner = true ∧
          List.Forall₂ (FitsCatalogues .structural root account)
            ((structPlaces root).filter (·.DerivesBoth)) (instructions .structural root) := by
  intro root
  -- The tree is evaluated once for all facts about it.
  have hfacts : ([] ∉ (structsAndEnumsOf root).map itemName ∧
      ((structsAndEnumsOf root).map itemName).Nodup) ∧
      ((structPlaces root).filter (·.DerivesBoth)).length = 1 ∧
      (firstFunction? root (Text.ofString "entrypoint")).any (fun entry =>
        !asserts "is_writable" entry && asserts "is_signer" entry) = true := by
    decide +kernel
  obtain ⟨⟨hfilled, hnodup⟩, hone, hany⟩ := hfacts
  obtain ⟨entry, hentry, hflags⟩ := (Option.any_eq_true _ _).1 hany
  have hdistinct : DistinctNames (structsAndEnumsOf root) := ⟨hfilled, hnodup⟩
  obtain ⟨account, _, hwritable, hsigner, hall⟩ :=
    (instructions_match_types .structural root).2.1 hdistinct entry hentry
  rw [Bool.and_eq_true, Bool.not_eq_true', Bool.eq_false_iff] at hflags
  refine ⟨hdistinct, hone, entry, hentry, account, ?_, ?_, hall⟩
  · exact Bool.eq_false_iff.2 fun hmut => hflags.1 (asserts_iff.2 (hwritable.1 hmut))
  · exact hsigner.2 (asserts_iff.1 hflags.2)

end ProgramInterface
