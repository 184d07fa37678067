import ProgramInterface.Proofs.Catalogue.Instructions
import ProgramInterface.Proofs.Catalogue.OwnFields
import ProgramInterface.Proofs.Description.Failure
import ProgramInterface.Proofs.Json.Number
import ProgramInterface.Proofs.Text.Ends

/-!
# Names in descriptions

The name of an instruction is empty only if its struct is named `Params`, and two instructions have
one name if and only if the names of their structs collide (`emitted_names`). In a list of fields
the names differ if the fields are named by position; if they are declared in braces, the names differ
if and only if they do so in the source once their first letters are in lower case.
-/

namespace ProgramInterface

variable {mode : FieldMode} {root : Node}

/-! ## Names of instructions -/

/-- The name of a struct without the ending that marks the parameters of an instruction. -/
def withoutParams (name : Text) : Text :=
  (Text.dropEnd? "Params" name).getD name

/-- How the names of two structs become one name of an instruction: they are the same without the
ending, or they begin with different letters that lower case makes alike. -/
inductive Collides (a b : Text) : Prop where
  | ending (h : withoutParams a = withoutParams b)
  | letter {c d : CodePoint} {s t : Text} (ha : withoutParams a = c :: s)
      (hb : withoutParams b = d :: t) (hne : c ≠ d) (hlower : c.lower ++ s = d.lower ++ t)

theorem instruction_name_eq (name : Text) :
    instructionName name = (withoutParams name).lowerFirst :=
  rfl

theorem instruction_name_eq_iff {a b : Text} :
    instructionName a = instructionName b ↔ Collides a b := by
  rw [instruction_name_eq, instruction_name_eq]
  constructor
  · intro h
    cases ha : withoutParams a with
    | nil =>
        rw [ha] at h
        exact .ending (ha.trans (Text.lower_first_eq_nil.1 h.symm).symm)
    | cons c s =>
        cases hb : withoutParams b with
        | nil =>
            rw [hb] at h
            exact .ending ((Text.lower_first_eq_nil.1 h).trans hb.symm)
        | cons d t =>
            rw [ha, hb, Text.lowerFirst, Text.lowerFirst] at h
            by_cases hletter : c = d
            · subst hletter
              have hrest : s = t := List.append_cancel_left h
              exact .ending (by rw [ha, hb, hrest])
            · exact .letter ha hb hletter h
  · intro h
    cases h with
    | ending h => rw [h]
    | letter ha hb _ hlower => rw [ha, hb, Text.lowerFirst, Text.lowerFirst, hlower]

/-- Two struct names that are the same without the ending are one name, or one of them is the other
one with the ending. -/
theorem eq_of_without_params {a b : Text} (h : withoutParams a = withoutParams b) :
    a = b ∨ a = b ++ Text.ofString "Params" ∨ b = a ++ Text.ofString "Params" := by
  unfold withoutParams at h
  cases ha : Text.dropEnd? "Params" a with
  | none =>
      cases hb : Text.dropEnd? "Params" b with
      | none => exact .inl (by simpa [ha, hb] using h)
      | some front =>
          rw [ha, hb, Option.getD_none, Option.getD_some] at h
          exact .inr (.inr (h ▸ Text.drop_end_eq_some.1 hb))
  | some front =>
      cases hb : Text.dropEnd? "Params" b with
      | none =>
          rw [ha, hb, Option.getD_none, Option.getD_some] at h
          exact .inr (.inl (h ▸ Text.drop_end_eq_some.1 ha))
      | some other =>
          rw [ha, hb, Option.getD_some, Option.getD_some] at h
          rw [Text.drop_end_eq_some] at ha hb
          exact .inl (by rw [ha, hb, h])

/-- Whether a name begins with a plain capital letter. -/
def BeginsWithCapital (name : Text) : Prop :=
  ∃ c ∈ name.head?, 0x41 ≤ c.val ∧ c.val ≤ 0x5A

theorem head_of_without_params {name t : Text} {c : CodePoint} (h : withoutParams name = c :: t) :
    c ∈ name.head? := by
  unfold withoutParams at h
  cases hname : Text.dropEnd? "Params" name with
  | none =>
      rw [hname, Option.getD_none] at h
      rw [h]
      rfl
  | some front =>
      rw [hname, Option.getD_some] at h
      rw [Text.drop_end_eq_some.1 hname, h]
      rfl

/-- No two plain capital letters are alike in lower case. -/
theorem capital_of_lower {c d : CodePoint} {s t : Text} (hc : 0x41 ≤ c.val ∧ c.val ≤ 0x5A)
    (hd : 0x41 ≤ d.val ∧ d.val ≤ 0x5A) (h : c.lower ++ s = d.lower ++ t) : c = d := by
  have hletters : ∀ m < 26, ∀ n < 26, (CodePoint.scalar (Char.ofNat (0x41 + m))).lower.head? =
      (CodePoint.scalar (Char.ofNat (0x41 + n))).lower.head? → m = n := by decide
  have hhead := congrArg List.head? h
  rw [List.head?_append_of_ne_nil _ c.lower_ne_nil, List.head?_append_of_ne_nil _ d.lower_ne_nil]
    at hhead
  have hcval : c.val = 0x41 + (c.val - 0x41) := by omega
  have hdval : d.val = 0x41 + (d.val - 0x41) := by omega
  rw [CodePoint.eq_scalar_of_val hcval (by omega), CodePoint.eq_scalar_of_val hdval (by omega)]
    at hhead
  have hequal := hletters (c.val - 0x41) (by omega) (d.val - 0x41) (by omega) hhead
  rw [CodePoint.eq_scalar_of_val hcval (by omega), CodePoint.eq_scalar_of_val hdval (by omega),
    hequal]

/-- Different names that begin with plain capital letters collide only if one of them is the other
one with the ending. -/
theorem Collides.of_capitals {a b : Text} (h : Collides a b) (ha : BeginsWithCapital a)
    (hb : BeginsWithCapital b) :
    a = b ∨ a = b ++ Text.ofString "Params" ∨ b = a ++ Text.ofString "Params" := by
  cases h with
  | ending h => exact eq_of_without_params h
  | letter hleft hright hne hlower =>
      obtain ⟨c, hc, hcapital⟩ := ha
      obtain ⟨d, hd, hcapital'⟩ := hb
      cases Option.some.inj (hc.symm.trans (head_of_without_params hleft))
      cases Option.some.inj (hd.symm.trans (head_of_without_params hright))
      exact absurd (capital_of_lower hcapital hcapital' hlower) hne

/-- Only a struct that is named by the ending alone has an instruction without a name. -/
theorem instruction_name_eq_nil {name : Text} (h : name ≠ []) :
    instructionName name = [] ↔ name = Text.ofString "Params" := by
  rw [instruction_name_eq, Text.lower_first_eq_nil]
  unfold withoutParams
  cases hname : Text.dropEnd? "Params" name with
  | none =>
      refine iff_of_false h fun heq => ?_
      rw [heq] at hname
      cases (Text.drop_end_append [] _).symm.trans hname
  | some front =>
      rw [Text.drop_end_eq_some] at hname
      rw [Option.getD_some, hname]
      exact List.append_left_eq_self.symm

/-- The names of the structs that instructions are made from. -/
def instructionSources (root : Node) : List Text :=
  if (firstFunction? root (Text.ofString "entrypoint")).isSome then
    ((structPlaces root).filter (·.DerivesBoth)).map (itemName ·.node)
  else []

/-- If all structs have names, instructions are named after those that they are made from. -/
theorem instruction_names (mode : FieldMode) (h : [] ∉ (structsOf root).map itemName) :
    (instructions mode root).map (·.name) = (instructionSources root).map instructionName := by
  have hentry : functionNamed? root entryName = firstFunction? root (Text.ofString "entrypoint") :=
    function_named_eq root _
  rw [instructions_eq, hentry, instructionSources, ← instruction_structs_eq h]
  cases firstFunction? root (Text.ofString "entrypoint") with
  | none => rfl
  | some entry =>
      rw [Option.elim_some, Option.isSome_some, if_pos rfl, List.map_map, List.map_map]
      rfl

/-! ## Names of fields -/

/-- The lists of fields that a type has, one for a struct and one for each variant with fields. -/
def TypeBody.fieldLists : TypeBody → List (List Field)
  | .struct fields => [fields]
  | .enum variants => variants.filterMap (·.fields)

/-- The lists of arguments and fields in a description. -/
def Document.fieldLists (document : Document) : List (List Field) :=
  document.instructions.map (·.arguments) ++ document.accounts.map (·.fields) ++
    document.types.flatMap (·.body.fieldLists)

theorem positional_name_injective :
    Function.Injective fun index => Text.ofString "field" ++ Text.ofNat index := by
  intro i j h
  have hdigits : Text.ofNat i = Text.ofNat j := List.append_cancel_left h
  rw [← Json.digits_value_of_nat i, hdigits, Json.digits_value_of_nat]

/-- Items of two lists that agree one by one in what they are mapped to have the same images. -/
theorem map_eq_map_of_forall {α β γ : Type} {r : α → β → Prop} {f : α → γ} {g : β → γ}
    (hagree : ∀ {a b}, r a b → g b = f a) {items : List α} {others : List β}
    (h : List.Forall₂ r items others) : others.map g = items.map f := by
  induction h with
  | nil => rfl
  | cons hitem _ ih => rw [List.map_cons, List.map_cons, hagree hitem, ih]

/-- Fields that are named by position have different names. -/
theorem names_of_parentheses (mode : FieldMode) {body : Node}
    (hkind : body.kind = .orderedFieldDeclarationList) :
    ((fieldsOfBody mode body).map (·.name)).Nodup := by
  have hnames := map_eq_map_of_forall (fun h => StandsAt.name h) (fields_of_parentheses mode hkind)
  have hpositions : (body.ownElements.map (·.2)).Nodup := by
    have hall : (List.range' 0 (body.childrenAs .type).length).Nodup := List.nodup_range'
    rw [← List.zipIdx_map_snd] at hall
    exact hall.sublist (List.filter_sublist.map _)
  have hnodup := hpositions.map positional_name_injective
  rw [List.map_map] at hnodup
  rw [hnames]
  exact hnodup

/-- Without declarations inside its members, the fields of a body in braces have the names that it
declares, with the first letters in lower case. -/
theorem names_of_braces (mode : FieldMode) {body : Node}
    (hkind : body.kind = .fieldDeclarationList)
    (hinside : ∀ member ∈ body.children, ∀ inner ∈ Node.preorders member.children,
      inner.declaresField = false) :
    (fieldsOfBody mode body).map (·.name) =
      (body.ownDeclarations.map itemName).map Text.lowerFirst := by
  rw [List.map_map]
  refine map_eq_map_of_forall (fun h => ?_) ((fields_of_braces_iff mode hkind).2 hinside)
  obtain ⟨name, hname, hfield⟩ := h.name
  rw [hfield, Function.comp_apply, itemName, Node.childText, hname]
  rfl

/-- Which names a list of fields of a tree has. Without a body there are none. Named by position they
differ. Declared in braces with nothing declared inside a member, they differ if and only if the
declared ones do with their first letters in lower case. -/
inductive NamesFields (root : Node) (fields : List Field) : Prop where
  | none (h : fields = [])
  | parentheses {mode : FieldMode} {body : Node} (hbody : body ∈ root.preorder)
      (hkind : body.kind = .orderedFieldDeclarationList) (hfields : fields = fieldsOfBody mode body)
      (hnodup : (fields.map (·.name)).Nodup)
  | braces {mode : FieldMode} {body : Node} (hbody : body ∈ root.preorder)
      (hkind : body.kind = .fieldDeclarationList) (hfields : fields = fieldsOfBody mode body)
      (hnodup : (∀ member ∈ body.children, ∀ inner ∈ Node.preorders member.children,
          inner.declaresField = false) →
        ((fields.map (·.name)).Nodup ↔
          ((body.ownDeclarations.map itemName).map Text.lowerFirst).Nodup))

theorem names_fields_of_body (mode : FieldMode) {body : Node} (hbody : body ∈ root.preorder) :
    NamesFields root (fieldsOfBody mode body) := by
  by_cases hbraces : body.kind = .fieldDeclarationList
  · refine .braces hbody hbraces rfl fun hinside => ?_
    rw [names_of_braces mode hbraces hinside]
  · by_cases hparentheses : body.kind = .orderedFieldDeclarationList
    · exact .parentheses hbody hparentheses rfl (names_of_parentheses mode hparentheses)
    · refine .none ?_
      unfold fieldsOfBody
      split
      · contradiction
      · contradiction
      · rfl

theorem names_fields_of_item (mode : FieldMode) {item : Node} (hitem : item ∈ root.preorder) :
    NamesFields root (fieldsOf mode item) := by
  unfold fieldsOf
  cases hbody : item.child? .body with
  | none => exact .none rfl
  | some body =>
      exact names_fields_of_body mode (Node.mem_preorder_trans (Node.mem_preorder_child hbody) hitem)

theorem names_fields_of_type {item : Node} (hitem : item ∈ root.preorder) :
    ∀ fields ∈ (typeBodyOf mode item).fieldLists, NamesFields root fields := by
  intro fields hfields
  unfold typeBodyOf at hfields
  split at hfields
  · obtain ⟨variant, hvariant, hsome⟩ := List.mem_filterMap.1 hfields
    unfold variantsOf at hvariant
    cases hbody : item.child? .body with
    | none =>
        rw [hbody] at hvariant
        cases hvariant
    | some body =>
        rw [hbody] at hvariant
        obtain ⟨node, hnode, rfl⟩ := List.mem_map.1 hvariant
        obtain ⟨inner, hinner, rfl⟩ := Option.map_eq_some_iff.1 hsome
        have hbodyBelow := Node.mem_preorder_trans (Node.mem_preorder_child hbody) hitem
        have hchild : node ∈ body.children :=
          (List.mem_filter.1 (List.mem_filter.1 hnode).1).1
        have hnodeBelow : node ∈ root.preorder := Node.mem_preorder_trans
          (Node.mem_preorder.2 (.inr ⟨node, hchild, Node.mem_preorder_self node⟩)) hbodyBelow
        exact names_fields_of_body mode
          (Node.mem_preorder_trans (Node.mem_preorder_child hinner) hnodeBelow)
  · cases List.mem_singleton.1 hfields
    exact names_fields_of_item mode hitem

/-! ## Descriptions -/

theorem arguments_of_instruction {instruction : Instruction}
    (h : instruction ∈ instructions mode root) :
    ∃ item ∈ root.preorder, instruction.arguments = fieldsOf mode item := by
  rw [instructions_eq] at h
  cases hentry : functionNamed? root entryName with
  | none =>
      rw [hentry] at h
      cases h
  | some entry =>
      rw [hentry, Option.elim_some] at h
      obtain ⟨place, hplace, rfl⟩ := List.mem_map.1 h
      have hstruct : place ∈ structPlaces root :=
        matching_struct_places root ▸ (List.mem_filter.1 hplace).1
      have hnode : place.node ∈ structsOf root :=
        map_node_struct_places root ▸ List.mem_map_of_mem hstruct
      exact ⟨place.node, (List.mem_filter.1 hnode).1, rfl⟩

theorem fields_named {settings : GenerationSettings} :
    ∀ fields ∈ (description settings root).fieldLists, NamesFields root fields := by
  intro fields hfields
  unfold Document.fieldLists at hfields
  rcases List.mem_append.1 hfields with hfront | htypes
  · rcases List.mem_append.1 hfront with harguments | haccounts
    · obtain ⟨instruction, hinstruction, rfl⟩ := List.mem_map.1 harguments
      obtain ⟨item, hitem, hequal⟩ := arguments_of_instruction hinstruction
      exact hequal ▸ names_fields_of_item _ hitem
    · obtain ⟨layout, hlayout, rfl⟩ := List.mem_map.1 haccounts
      obtain ⟨_, item, hfirst, hequal⟩ := mem_account_layouts.1 hlayout
      exact hequal ▸ names_fields_of_item _ (List.mem_filter.1 (List.mem_of_find?_eq_some hfirst)).1
  · obtain ⟨entry, hentry, hmem⟩ := List.mem_flatMap.1 htypes
    obtain ⟨_, item, hfirst, hbody⟩ := mem_type_entries.1 hentry
    rw [hbody] at hmem
    exact names_fields_of_type (List.mem_filter.1 (List.mem_of_find?_eq_some hfirst)).1 fields hmem

theorem mem_instruction_sources {name : Text} (h : name ∈ instructionSources root) :
    name ∈ (structsOf root).map itemName := by
  unfold instructionSources at h
  split at h
  · obtain ⟨place, hplace, rfl⟩ := List.mem_map.1 h
    rw [← map_node_struct_places root, List.map_map]
    exact List.mem_map_of_mem (List.mem_filter.1 hplace).1
  · cases h

/-- In a tree whose structs have names, instructions are named after the structs that they are made
from. One of these names is empty if and only if a struct is named by the ending alone, and the names
differ if and only if those of the structs do not collide. Which names of arguments and fields differ
is told list by list. -/
theorem emitted_names {settings : GenerationSettings} {document : Document}
    (hdocument : describe? settings root = some document)
    (hfilled : [] ∉ (structsOf root).map itemName) :
    document.instructions.map (·.name) = (instructionSources root).map instructionName ∧
      ([] ∈ document.instructions.map (·.name) ↔
        Text.ofString "Params" ∈ instructionSources root) ∧
      ((document.instructions.map (·.name)).Nodup ↔
        (instructionSources root).Pairwise fun a b => ¬ Collides a b) ∧
      ∀ fields ∈ document.fieldLists, NamesFields root fields := by
  obtain ⟨_, rfl⟩ := describe_eq_some.1 hdocument
  have hnames : (description settings root).instructions.map (·.name) =
      (instructionSources root).map instructionName := instruction_names settings.mode hfilled
  have hne : ∀ {name}, name ∈ instructionSources root → name ≠ [] := by
    rintro name hname rfl
    exact hfilled (mem_instruction_sources hname)
  refine ⟨hnames, ?_, ?_, fields_named⟩
  · rw [hnames, List.mem_map]
    constructor
    · rintro ⟨name, hname, hempty⟩
      exact (instruction_name_eq_nil (hne hname)).1 hempty ▸ hname
    · intro hparams
      exact ⟨_, hparams, (instruction_name_eq_nil (hne hparams)).2 rfl⟩
  · rw [hnames, List.Nodup, List.pairwise_map]
    simp only [ne_eq, instruction_name_eq_iff]

/-- Instructions of structs with different names that begin with plain capital letters have different
names, unless one struct is named as another one with the ending. -/
theorem instruction_names_differ (hnodup : (instructionSources root).Nodup)
    (hcapitals : ∀ name ∈ instructionSources root, BeginsWithCapital name)
    (hending : ∀ name ∈ instructionSources root,
      name ++ Text.ofString "Params" ∉ instructionSources root) :
    ((instructionSources root).map instructionName).Nodup := by
  rw [List.Nodup, List.pairwise_map]
  refine List.Pairwise.imp_of_mem (fun ha hb hne hequal => ?_) hnodup
  rcases (instruction_name_eq_iff.1 hequal).of_capitals (hcapitals _ ha) (hcapitals _ hb) with
    h | rfl | rfl
  · exact hne h
  · exact hending _ hb ha
  · exact hending _ ha hb

/-- A program with an instruction of three arguments in braces and one of two elements in
parentheses. -/
theorem emitted_names_apart :
    let root := Grammar.sourceFile "fn entrypoint(){}
      #[derive(BorshSerialize,BorshDeserialize)] struct PayParams{To:Key,to_fee:u8,n:u8}
      #[derive(BorshSerialize,BorshDeserialize)] struct Stop(u8,&u8,u16);"
    ∃ document, describe? ⟨500, false⟩ root = some document ∧
      document.instructions.map (·.name) = ["pay", "stop"].map Text.ofString ∧
      (document.instructions.map (·.name)).Nodup ∧
      ∀ fields ∈ document.fieldLists, NamesFields root fields := by
  intro root
  have hfacts : [] ∉ (structsOf root).map itemName ∧
      (describe? ⟨500, false⟩ root).isSome = true ∧
      (instructionSources root).map instructionName = ["pay", "stop"].map Text.ofString := by
    decide +kernel
  obtain ⟨hfilled, hsome, hsources⟩ := hfacts
  obtain ⟨document, hdocument⟩ := Option.isSome_iff_exists.1 hsome
  obtain ⟨hnames, _, _, hfields⟩ := emitted_names hdocument hfilled
  refine ⟨document, hdocument, hnames.trans hsources, ?_, hfields⟩
  rw [hnames, hsources]
  decide

/-- The names of structs and fields differ, but an instruction has no name, two have the same one,
and so have two arguments of one. -/
theorem emitted_names_lost :
    let root := Grammar.sourceFile "fn entrypoint(){}
      #[derive(BorshSerialize,BorshDeserialize)] struct Params{Ab:u8,ab:u8}
      #[derive(BorshSerialize,BorshDeserialize)] struct Pay;
      #[derive(BorshSerialize,BorshDeserialize)] struct PayParams;"
    DistinctNames (structsOf root) ∧
      (∀ body ∈ root.preorder, [] ∉ body.ownDeclarations.map itemName ∧
        (body.ownDeclarations.map itemName).Nodup) ∧
      ∃ document, describe? ⟨500, false⟩ root = some document ∧
        [] ∈ document.instructions.map (·.name) ∧ ¬ (document.instructions.map (·.name)).Nodup ∧
        ∃ fields ∈ document.fieldLists, ¬ (fields.map (·.name)).Nodup := by
  intro root
  have hfacts : ([] ∉ (structsOf root).map itemName ∧ ((structsOf root).map itemName).Nodup) ∧
      (∀ body ∈ root.preorder, [] ∉ body.ownDeclarations.map itemName ∧
        (body.ownDeclarations.map itemName).Nodup) ∧
      (describe? ⟨500, false⟩ root).any (fun document =>
        [] ∈ document.instructions.map (·.name) ∧ ¬ (document.instructions.map (·.name)).Nodup ∧
        ∃ fields ∈ document.fieldLists, ¬ (fields.map (·.name)).Nodup) = true := by
    decide +kernel
  obtain ⟨⟨hfilled, hnodup⟩, hfields, hany⟩ := hfacts
  obtain ⟨document, hdocument, hlost⟩ := (Option.any_eq_true _ _).1 hany
  exact ⟨⟨hfilled, hnodup⟩, hfields, document, hdocument, of_decide_eq_true hlost⟩

end ProgramInterface
