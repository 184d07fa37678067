import ProgramInterface.Proofs.Catalogue.Append
import ProgramInterface.Proofs.Catalogue.Code
import ProgramInterface.Proofs.Catalogue.Instructions

/-!
# Declarations

The catalogues read little of the items of a source and of the places where they stand: the
declarations of the source (`Node.declarations`). Two sources with the same declarations have the same
program name, account layouts and types, and, if their entry points expect the same account, the same
instructions (`program_name_congr`, `account_layouts_congr`, `type_entries_congr`,
`instructions_congr`). The code of a source declares what the source does (`declarations_code`).
-/

namespace ProgramInterface

/-- Whether items of a kind are read for some catalogue. -/
def Kind.isDeclared (kind : Kind) : Bool :=
  [functionItem, modItem, structItem, enumItem].contains kind

/-- Whether an item of a kind makes a type. -/
def Kind.makesType (kind : Kind) : Bool :=
  [structItem, enumItem].contains kind

/-- What catalogues read of an item: its kind and name, whether an attribute above marks it, the kinds
and names of the nodes around it, nearest first, and what the type that it makes is made of. -/
structure Declaration where
  kind : Kind
  name : Option Text
  isMarked : Bool
  around : List (Kind × Text)
  body : FieldMode → TypeBody

/-- The name of a declared item; without one it is empty. -/
def Declaration.label (declaration : Declaration) : Text :=
  declaration.name.getD []

/-- The fields of what a type is made of, if it is a struct. -/
def TypeBody.fields : TypeBody → List Field
  | struct fields => fields
  | enum _ => []

namespace Node

/-- The kind and name of a node. -/
def stamp (node : Node) : Kind × Text :=
  (node.kind, itemName node)

/-- The declaration of an item. -/
def declared (around : List (Kind × Text)) (isMarked : Bool) (item : Node) : Declaration where
  kind := item.kind
  name := (item.child? .name).map content
  isMarked := isMarked
  around := around
  body mode := if item.kind.makesType then typeBodyOf mode item else .struct []

/-- Whether what stands behind a node is marked, given whether the node is. -/
def marksNext (marks : Node → Bool) (isMarked : Bool) (node : Node) : Bool :=
  if !node.isNamed then isMarked
  else if node.kind = .attributeItem then marks node || isMarked
  else node.kind.isComment && isMarked

mutual

/-- The declarations in a tree, told which nodes stand around it and whether it is marked; `marks` says
which attributes mark the item below. -/
def declarations (marks : Node → Bool) (around : List (Kind × Text)) (isMarked : Bool) :
    Node → List Declaration
  | node@⟨_, _, _, _, _, _, children⟩ =>
    (if node.kind.isDeclared then [node.declared around isMarked] else []) ++
      declarationsAmong marks (node.stamp :: around) false children

/-- The declarations in some trees that stand one behind the other. -/
def declarationsAmong (marks : Node → Bool) (around : List (Kind × Text)) (isMarked : Bool) :
    List Node → List Declaration
  | [] => []
  | node :: rest =>
    node.declarations marks around isMarked ++
      declarationsAmong marks around (node.marksNext marks isMarked) rest

end

theorem declarations_of (marks : Node → Bool) (around : List (Kind × Text)) (isMarked : Bool)
    (node : Node) : node.declarations marks around isMarked =
      (if node.kind.isDeclared then [node.declared around isMarked] else []) ++
        declarationsAmong marks (node.stamp :: around) false node.children := by
  cases node
  rfl

theorem declarations_among_append (marks : Node → Bool) (around : List (Kind × Text))
    (isMarked : Bool) (front back : List Node) :
    declarationsAmong marks around isMarked (front ++ back) =
      declarationsAmong marks around isMarked front ++
        declarationsAmong marks around (front.foldl (marksNext marks) isMarked) back := by
  induction front generalizing isMarked with
  | nil => rfl
  | cons node rest ih =>
      rw [List.cons_append, declarationsAmong, ih, declarationsAmong, List.append_assoc]
      rfl

mutual

/-- A tree without items to declare declares nothing. -/
theorem declarations_eq_nil (marks : Node → Bool) (around : List (Kind × Text)) (isMarked : Bool) :
    ∀ node : Node, (∀ inner ∈ node.preorder, inner.kind.isDeclared = false) →
      node.declarations marks around isMarked = []
  | ⟨_, _, _, _, _, _, children⟩, h => by
    have hbelow (around : List (Kind × Text)) := declarations_among_eq_nil marks around false
      children fun inner hinner => h inner (List.mem_cons_of_mem _ hinner)
    rw [declarations_of, h _ (mem_preorder_self _), hbelow]
    rfl

theorem declarations_among_eq_nil (marks : Node → Bool) (around : List (Kind × Text))
    (isMarked : Bool) : ∀ nodes : List Node,
      (∀ inner ∈ preorders nodes, inner.kind.isDeclared = false) →
        declarationsAmong marks around isMarked nodes = []
  | [], _ => rfl
  | node :: rest, h => by
    have hrest (isMarked : Bool) := declarations_among_eq_nil marks around isMarked rest
      fun inner hinner => h inner (List.mem_append_right _ hinner)
    rw [declarationsAmong, hrest, declarations_eq_nil marks around isMarked node
      fun inner hinner => h inner (List.mem_append_left _ hinner)]
    rfl

end

theorem item_name_eq (item : Node) : itemName item = ((item.child? .name).map content).getD [] := by
  rw [itemName, childText]
  cases item.child? .name <;> rfl

/-- Whether the attributes in front of a node mark it is told step by step. -/
theorem any_attributes_cons (marks : Node → Bool) (before : List Node) (node : Node) :
    (attributesAmong (if node.isNamed then node :: before else before)).any marks =
      node.marksNext marks ((attributesAmong before).any marks) := by
  unfold marksNext
  cases node.isNamed with
  | false => rfl
  | true =>
      rw [if_pos rfl, attributesAmong]
      by_cases hattribute : node.kind = .attributeItem
      · simp [hattribute]
      · cases node.kind.isComment <;> simp [hattribute]

end Node

/-- The declaration of the item at a place. -/
def Placed.declared (marks : Node → Bool) (item : Placed) : Declaration :=
  item.node.declared (item.above.map Node.stamp) (item.attributes.any marks)

theorem Placed.label_declared (marks : Node → Bool) (item : Placed) :
    (item.declared marks).label = itemName item.node :=
  (Node.item_name_eq item.node).symm

namespace Node

mutual

/-- The declarations in a tree are those of the items at its places. -/
theorem declarations_places (marks : Node → Bool) (above before : List Node) : ∀ node : Node,
    node.declarations marks (above.map stamp) ((attributesAmong before).any marks) =
      ((node.places above before).filter (·.node.kind.isDeclared)).map (Placed.declared marks)
  | ⟨_, _, _, _, _, _, children⟩ => by
    have hbelow (outer : Node) := declarations_among_places marks (outer :: above) [] children
    rw [declarations_of, places_eq, List.filter_cons]
    split
    · rw [List.map_cons, ← hbelow]
      rfl
    · rw [← hbelow]
      rfl

/-- The declarations among siblings are those of the items at their places. -/
theorem declarations_among_places (marks : Node → Bool) (above before : List Node) :
    ∀ nodes : List Node,
      declarationsAmong marks (above.map stamp) ((attributesAmong before).any marks) nodes =
        ((placesAmong above before nodes).filter (·.node.kind.isDeclared)).map
          (Placed.declared marks)
  | [] => rfl
  | node :: rest => by
    rw [declarationsAmong, placesAmong, List.filter_append, List.map_append,
      declarations_places marks above before node, ← any_attributes_cons,
      declarations_among_places marks above _ rest]

end

/-- The declarations in a source. -/
def declarationsIn (marks : Node → Bool) (root : Node) : List Declaration :=
  root.declarations marks [] false

theorem declarations_in_eq (marks : Node → Bool) (root : Node) :
    root.declarationsIn marks = ((Placed.ofRoot root).walk.filter (·.node.kind.isDeclared)).map
      (Placed.declared marks) := by
  rw [Placed.walk_eq_places]
  exact declarations_places marks [] [] root

end Node

/-- The declarations of the kinds that a query asks for. -/
def QueryKind.among (query : QueryKind) (declarations : List Declaration) : List Declaration :=
  declarations.filter (query.nodeKinds.contains ·.kind)

/-- Whether a query asks for items that are declared. -/
def QueryKind.isDeclared (query : QueryKind) : Bool :=
  query.nodeKinds.all Kind.isDeclared

/-- The matches of a query for items are those declared. -/
theorem map_declared_matching {query : QueryKind} (hquery : query.isDeclared = true)
    (marks : Node → Bool) (root : Node) :
    ((Placed.ofRoot root).matching query).map (Placed.declared marks) =
      query.among (root.declarationsIn marks) := by
  rw [Node.declarations_in_eq, QueryKind.among, List.filter_map, List.filter_filter,
    Placed.matching]
  refine congrArg (List.map _) (List.filter_congr fun placed _ => ?_)
  show query.isMatch placed.node =
    (query.nodeKinds.contains placed.node.kind && placed.node.kind.isDeclared)
  cases hkind : query.nodeKinds.contains placed.node.kind with
  | false => rw [QueryKind.isMatch, hkind, Bool.false_and]
  | true =>
      rw [QueryKind.isMatch, hkind, Bool.true_and]
      exact (List.all_eq_true.1 hquery _ (List.contains_iff_mem.1 hkind)).symm

/-- What is read of the nodes that a query for items matches is read of the declarations. -/
theorem map_matching {α : Type} {query : QueryKind} (hquery : query.isDeclared = true)
    {f : Node → α} {g : Declaration → α} (marks : Node → Bool)
    (hread : ∀ placed : Placed, query.isMatch placed.node = true →
      g (placed.declared marks) = f placed.node) (root : Node) :
    (root.matching query).map f = (query.among (root.declarationsIn marks)).map g := by
  rw [← map_declared_matching hquery, List.map_map, ← Placed.map_node_matching, List.map_map]
  exact List.map_congr_left fun placed hplaced => (hread placed (List.mem_filter.1 hplaced).2).symm

/-! ## Catalogues of declarations -/

/-- The module that a place lies in, told by the kinds and names of the nodes around it. -/
def Declaration.moduleName? (declaration : Declaration) : Option Text :=
  (declaration.around.find? (·.1 = .modItem)).map (·.2)

/-- The name of the module that a program is named after is among what is declared. -/
theorem naming_module_declared (marks : Node → Bool) (root : Node) :
    (namingModule? root).map itemName =
      ((QueryKind.function.among (root.declarationsIn marks)).find? (·.label = handlerName)).bind
        fun handler => handler.moduleName?.or
          ((QueryKind.module.among (root.declarationsIn marks)).head?.map (·.label)) := by
  have hfirst : (root.matching .module).head?.map itemName =
      (QueryKind.module.among (root.declarationsIn marks)).head?.map (·.label) := by
    rw [← List.head?_map, ← List.head?_map, map_matching rfl marks]
    exact fun placed _ => placed.label_declared marks
  rw [← map_declared_matching rfl, List.find?_map, ← hfirst, namingModule?, findFunction?]
  have hlabel : (fun declaration : Declaration => decide (declaration.label = handlerName)) ∘
      Placed.declared marks = fun placed =>
        decide (Text.ofString (placed.node.childText .name) = handlerName) := by
    funext placed
    rw [Function.comp_apply, placed.label_declared]
    rfl
  rw [hlabel]
  cases (((Placed.ofRoot root).matching .function).find? _) with
  | none => rfl
  | some handler =>
      have hmodule : (handler.declared marks).moduleName? =
          (handler.enclosing? .modItem).map itemName := by
        rw [Declaration.moduleName?, Placed.enclosing?]
        show ((handler.above.map Node.stamp).find? _).map _ = _
        rw [List.find?_map, Option.map_map]
        rfl
      rw [Option.bind_some, Option.map_some, Option.bind_some, hmodule, Option.map_or]

variable {marks : Node → Bool} {a b : Node}

theorem program_name_congr (h : a.declarationsIn marks = b.declarationsIn marks) :
    programName a = programName b := by
  have hname : ∀ root : Node, programName root =
      ((namingModule? root).map itemName).elim defaultProgramName fun name =>
        if name.isEmpty then defaultProgramName else name ++ "_program" := by
    intro root
    rw [programName]
    cases namingModule? root <;> rfl
  rw [hname, hname, naming_module_declared marks, naming_module_declared marks, h]

/-- What is made of the first items of every name depends on nothing but what is read of the items. -/
theorem first_by_name_congr {α β : Type} (make : Text → α → β) {f : Node → α}
    {items items' : List Node} (h : items.map (fun item => (itemName item, f item)) =
      items'.map fun item => (itemName item, f item)) (seen : List Text) :
    (firstByName seen items).map (fun (name, item) => make name (f item)) =
      (firstByName seen items').map fun (name, item) => make name (f item) := by
  induction items generalizing items' seen with
  | nil =>
      have hnil : items' = [] := by simpa using h.symm
      rw [hnil]
  | cons item rest ih =>
      cases items' with
      | nil => cases h
      | cons item' rest' =>
          rw [List.map_cons, List.map_cons] at h
          obtain ⟨hitem, hrest⟩ := List.cons.inj h
          obtain ⟨hname, hread⟩ := Prod.mk.inj hitem
          by_cases hskip : itemName item = [] ∨ itemName item ∈ seen
          · rw [first_by_name_skip hskip, first_by_name_skip (hname ▸ hskip), ih hrest]
          · obtain ⟨hfilled, hnew⟩ := not_or.1 hskip
            rw [first_by_name_take hfilled hnew,
              first_by_name_take (hname ▸ hfilled) (hname ▸ hnew), List.map_cons, List.map_cons,
              ih hrest, hname]
            exact congrArg (make _ · :: _) hread

/-- What is made of the first items of every name is told by the declarations. -/
theorem first_declared_congr {α β : Type} (make : Text → α → β) {query : QueryKind}
    (hquery : query.isDeclared = true) {f : Node → α} {g : Declaration → α}
    (hread : ∀ placed : Placed, query.isMatch placed.node = true →
      g (placed.declared marks) = f placed.node)
    (h : a.declarationsIn marks = b.declarationsIn marks) :
    (firstByName [] (a.matching query)).map (fun (name, item) => make name (f item)) =
      (firstByName [] (b.matching query)).map fun (name, item) => make name (f item) := by
  have hitems : ∀ root : Node, (root.matching query).map (fun item => (itemName item, f item)) =
      (query.among (root.declarationsIn marks)).map fun declaration =>
        (declaration.label, g declaration) := by
    refine map_matching hquery marks fun item hitem => ?_
    rw [hread item hitem, item.label_declared]
  refine first_by_name_congr make ?_ []
  rw [hitems, hitems, h]

theorem fields_type_body (mode : FieldMode) {item : Node} (h : item.kind = .structItem) :
    (typeBodyOf mode item).fields = fieldsOf mode item := by
  rw [typeBodyOf, h]
  rfl

/-- What an item makes is told by its declaration. -/
theorem body_declared (mode : FieldMode) {item : Placed} (h : item.node.kind.makesType = true) :
    (item.declared marks).body mode = typeBodyOf mode item.node :=
  if_pos h

theorem kind_of_struct {item : Placed} (h : QueryKind.struct.isMatch item.node = true) :
    item.node.kind = .structItem := by
  simpa [QueryKind.isMatch, QueryKind.nodeKinds] using h

theorem account_layouts_congr (h : a.declarationsIn marks = b.declarationsIn marks) :
    accountLayouts a = accountLayouts b := by
  refine first_declared_congr AccountLayout.mk rfl
    (g := fun declaration => (declaration.body .account).fields) (fun item hitem => ?_) h
  have hkind := kind_of_struct hitem
  rw [body_declared _ (by rw [hkind]; rfl), fields_type_body _ hkind]

theorem type_entries_congr (h : a.declarationsIn marks = b.declarationsIn marks)
    (mode : FieldMode) : typeEntries mode a = typeEntries mode b :=
  first_declared_congr TypeEntry.mk rfl (g := (·.body mode))
    (fun _ hitem => body_declared mode hitem) h

/-- The instruction that a declared struct stands for. -/
def Declaration.instruction (mode : FieldMode) (account : AccountRef) (declaration : Declaration) :
    Instruction :=
  ⟨instructionName declaration.label, [account], (declaration.body mode).fields⟩

theorem instructions_declared (mode : FieldMode) (root : Node) :
    instructions mode root =
      ((functionNamed? root entryName).map entryAccount).elim [] fun account =>
        ((QueryKind.struct.among (root.declarationsIn Node.derivesSerialization)).filter
          fun declaration => declaration.name.isSome && declaration.isMarked).map
            (Declaration.instruction mode account) := by
  rw [instructions_eq, ← map_declared_matching rfl, List.filter_map]
  cases functionNamed? root entryName with
  | none => rfl
  | some entry =>
      have hstruct : (fun declaration : Declaration =>
          declaration.name.isSome && declaration.isMarked) ∘
            Placed.declared Node.derivesSerialization = Placed.isInstructionStruct := by
        funext item
        show (((item.node.child? .name).map Node.content).isSome &&
          item.attributes.any Node.derivesSerialization) = _
        rw [Option.isSome_map]
        rfl
      rw [Option.map_some, Option.elim_some, Option.elim_some, hstruct, List.map_map]
      refine List.map_congr_left fun item hitem => ?_
      have hkind := kind_of_struct (List.mem_filter.1 (List.mem_filter.1 hitem).1).2
      rw [Function.comp_apply, Declaration.instruction, body_declared _ (by rw [hkind]; rfl),
        fields_type_body _ hkind, item.label_declared]
      rfl

/-- Two sources that declare the same and whose entry points expect the same account. -/
theorem instructions_congr
    (h : a.declarationsIn Node.derivesSerialization = b.declarationsIn Node.derivesSerialization)
    (hentry : (functionNamed? a entryName).map entryAccount =
      (functionNamed? b entryName).map entryAccount) (mode : FieldMode) :
    instructions mode a = instructions mode b := by
  rw [instructions_declared, instructions_declared, h, hentry]

/-! ## Declarations in code -/

namespace Node

/-- Attributes mark the item below by what is written in them. -/
def MarksByText (marks : Node → Bool) : Prop :=
  ∀ marker : Node, marker.kind = .attributeItem → ∀ amongTypes,
    marks (marker.code amongTypes) = marks marker

theorem item_name_code {node : Node} (h : node.Tidy) (amongTypes : Bool) :
    itemName (node.code amongTypes) = itemName node := by
  rw [itemName, child_text_code h (.inl rfl), itemName]

theorem stamp_code {node : Node} (h : node.Tidy) (amongTypes : Bool) :
    (node.code amongTypes).stamp = node.stamp := by
  rw [stamp, kind_code, item_name_code h, stamp]

theorem declared_code {item : Node} (h : item.Tidy) (around : List (Kind × Text))
    (isMarked amongTypes : Bool) :
    (item.code amongTypes).declared around isMarked = item.declared around isMarked := by
  have hname : ((item.code amongTypes).child? .name).map content =
      (item.child? .name).map content := by
    rw [child_code h, Option.map_map]
    exact Option.map_congr fun name hname =>
      content_code (keeps_text_of_role (.inl rfl) hname _)
  simp only [declared, hname, kind_code, type_body_of_code _ h]

theorem marks_next_code (hmarks : MarksByText marks) (isMarked : Bool) (node : Node)
    (amongTypes : Bool) :
    (node.code amongTypes).marksNext marks isMarked = node.marksNext marks isMarked := by
  unfold marksNext
  rw [is_named_code, kind_code]
  by_cases hattribute : node.kind = .attributeItem
  · rw [if_pos hattribute, if_pos hattribute, hmarks node hattribute]
  · rw [if_neg hattribute, if_neg hattribute]

/-- A comment passes the mark on. -/
theorem marks_next_comment {comment : Node} (h : comment.kind.isComment = true) (isMarked : Bool) :
    comment.marksNext marks isMarked = isMarked := by
  unfold marksNext
  rw [if_neg (Kind.ne_of_comment h rfl), h]
  cases comment.isNamed <;> rfl

/-- A comment declares nothing. -/
theorem declarations_comment {comment : Node} (htidy : comment.Tidy)
    (h : comment.kind.isComment = true) (around : List (Kind × Text)) (isMarked : Bool) :
    comment.declarations marks around isMarked = [] := by
  have hleaf := (htidy.here.comment h).2
  have hkind : comment.kind.isDeclared = false := by
    cases hkind : comment.kind <;> first | rfl | simp [hkind, Kind.isComment] at h
  rw [declarations_of, hleaf, hkind]
  rfl

mutual

/-- A tree declares what its code declares. -/
theorem declarations_code (hmarks : MarksByText marks) (around : List (Kind × Text))
    (isMarked amongTypes : Bool) : ∀ node : Node, node.Tidy →
      (node.code amongTypes).declarations marks around isMarked =
        node.declarations marks around isMarked
  | ⟨_, _, _, _, _, _, children⟩, hnode => by
    have hbelow (around : List (Kind × Text)) (amongTypes : Bool) :=
      declarations_codes hmarks around false amongTypes children fun _ hchild => hnode.child hchild
    rw [declarations_of, declarations_of, children_code, kind_code, declared_code hnode, hbelow,
      stamp_code hnode]

/-- Some trees declare what their code declares. -/
theorem declarations_codes (hmarks : MarksByText marks) (around : List (Kind × Text))
    (isMarked amongTypes : Bool) : ∀ nodes : List Node, (∀ node ∈ nodes, node.Tidy) →
      declarationsAmong marks around isMarked (codes amongTypes nodes) =
        declarationsAmong marks around isMarked nodes
  | [], _ => rfl
  | node :: rest, hnodes => by
    have hnode := hnodes node (List.mem_cons_self ..)
    have hrest (isMarked : Bool) := declarations_codes hmarks around isMarked amongTypes rest
      fun other hother => hnodes other (List.mem_cons_of_mem _ hother)
    rw [codes, declarationsAmong]
    split
    · rename_i hcomment
      rw [hrest, declarations_comment hnode hcomment, marks_next_comment hcomment, List.nil_append]
    · rw [declarationsAmong, hrest, declarations_code hmarks around isMarked amongTypes node hnode,
        marks_next_code hmarks]

end

/-- Siblings pass on the mark that their code passes on. -/
theorem marks_next_codes (hmarks : MarksByText marks) (isMarked amongTypes : Bool)
    (nodes : List Node) : (codes amongTypes nodes).foldl (marksNext marks) isMarked =
      nodes.foldl (marksNext marks) isMarked := by
  induction nodes generalizing isMarked with
  | nil => rfl
  | cons node rest ih =>
      rw [codes, List.foldl_cons]
      split
      · rename_i hcomment
        rw [ih, marks_next_comment hcomment]
      · rw [List.foldl_cons, ih, marks_next_code hmarks]

end Node

/-! ## Functions by name -/

/-- Whether a node is a function with a given name. -/
def Node.isFunctionNamed (name : Text) (node : Node) : Bool :=
  node.stamp = (.functionItem, name)

theorem function_named_first (root : Node) (name : Text) :
    functionNamed? root name = root.preorder.find? (Node.isFunctionNamed name) := by
  have hnamed : ∀ node : Node, decide (node.kind = .functionItem ∧ itemName node = name) =
      node.isFunctionNamed name := by
    intro node
    simp [Node.isFunctionNamed, Node.stamp]
  rw [function_named_eq, firstFunction?, funext hnamed]

/-- The account that a function of a name expects is read from code. -/
theorem reads_code_named (name : Text) {nodes : List Node} (h : ∀ node ∈ nodes, node.Tidy) :
    Node.ReadsCode (fun node => if node.isFunctionNamed name then some (entryAccount node)
      else none) nodes := by
  refine .of_class (fun comment hcomment => ?_) (fun node hnode amongTypes => ?_)
    fun node hnode _ amongTypes => ?_
  · have hkind : comment.kind ≠ .functionItem := Kind.ne_of_comment hcomment rfl
    simp [Node.isFunctionNamed, Node.stamp, hkind]
  · rw [Node.isFunctionNamed, Node.stamp_code (h node hnode), Node.isFunctionNamed]
  · exact congrArg some (entry_account_code (h node hnode) amongTypes)

end ProgramInterface
