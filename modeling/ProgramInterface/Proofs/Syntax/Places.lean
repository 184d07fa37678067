import ProgramInterface.Proofs.Syntax.Preorder

/-!
# Places in a source file

What a place says about a node, apart from what lies above it, is the attributes written above the
node (`Placed.detached`). It depends only on the siblings of the node, so a walk through a file whose
items are put behind those of another file meets the same nodes under the same attributes
(`matching_file_append`): all it takes is that no attribute at the end of the first file is left for the
first item of the second. Like nodes, places are met in recursive pre-order (`walk_eq_places`).
-/

namespace ProgramInterface

/-- A source file with given items; its place and text are those of `frame`. -/
def Node.fileOf (frame : Node) (items : List Node) : Node :=
  { frame with kind := .sourceFile, children := items }

namespace Node

/-- Two lists of siblings that end in the same attributes do so with one more sibling. -/
theorem attributes_among_cons {before before' : List Node}
    (h : attributesAmong before = attributesAmong before') (node : Node) :
    attributesAmong (node :: before) = attributesAmong (node :: before') := by
  simp only [attributesAmong, h]

theorem attributes_among_idem (before : List Node) :
    attributesAmong (attributesAmong before) = attributesAmong before := by
  induction before with
  | nil => rfl
  | cons sibling rest ih =>
      by_cases hattribute : sibling.kind = .attributeItem
      · rw [attributesAmong, if_pos hattribute, attributesAmong, if_pos hattribute, ih]
      · rw [attributesAmong, if_neg hattribute]
        split
        · exact ih
        · rfl

/-- Behind a sibling that is neither an attribute nor a comment no attribute counts. -/
theorem attributes_among_eq_nil {before : List Node}
    (h : ∀ last ∈ before.head?, last.kind ≠ .attributeItem ∧ last.kind.isComment = false) :
    attributesAmong before = [] := by
  cases before with
  | nil => rfl
  | cons last rest =>
      obtain ⟨hattribute, hcomment⟩ := h last rfl
      rw [attributesAmong, if_neg hattribute, hcomment]
      rfl

/-- The matches in a file are those in its items. -/
theorem matching_file (frame : Node) (items : List Node) (kind : QueryKind) :
    (fileOf frame items).matching kind = (preorders items).filter kind.isMatch := by
  have hroot : kind.isMatch (fileOf frame items) = false := by cases kind <;> rfl
  rw [matching_eq_filter_preorder, preorder_eq, List.filter_cons_of_neg (by simp [hroot])]
  rfl

theorem matching_file_append (frame : Node) (front back : List Node) (kind : QueryKind) :
    (fileOf frame (front ++ back)).matching kind =
      (fileOf frame front).matching kind ++ (fileOf frame back).matching kind := by
  simp only [matching_file, preorders_append, List.filter_append]

end Node

namespace Placed

/-- A place without what lies above it; of the siblings in front only the attributes are left. -/
def detached (placed : Placed) : Placed :=
  ⟨placed.node, placed.attributes, []⟩

theorem attributes_detached (placed : Placed) : placed.detached.attributes = placed.attributes :=
  Node.attributes_among_idem placed.before

/-! ## Siblings -/

/-- The place of a sibling is told by the attributes that the siblings before it end in. -/
theorem siblings_detached {above above' before before' : List Node} {placed placed' : List Placed}
    (hbefore : Node.attributesAmong before = Node.attributesAmong before')
    (hplaced : placed.map detached = placed'.map detached) (nodes : List Node) :
    (siblings above before placed nodes).map detached =
      (siblings above' before' placed' nodes).map detached := by
  induction nodes generalizing before before' placed placed' with
  | nil => simp only [siblings, List.map_reverse, hplaced]
  | cons node rest ih =>
      refine ih ?_ ?_
      · split
        · exact Node.attributes_among_cons hbefore node
        · exact hbefore
      · have hnode : detached ⟨node, before, above⟩ = detached ⟨node, before', above'⟩ := by
          simp only [detached, attributes, hbefore]
        rw [List.map_cons, List.map_cons, hnode, hplaced]

/-- The named ones of some siblings, the last one first. -/
def namedBack (nodes : List Node) : List Node :=
  (nodes.filter (·.isNamed)).reverse

theorem siblings_append (above before : List Node) (placed : List Placed)
    (front back : List Node) :
    siblings above before placed (front ++ back) =
      siblings above before placed front ++ siblings above (namedBack front ++ before) [] back := by
  induction front generalizing before placed with
  | nil =>
      have hdone : ∀ (before : List Node) (placed : List Placed),
          siblings above before placed back = placed.reverse ++ siblings above before [] back := by
        induction back with
        | nil => simp [siblings]
        | cons node rest ih =>
            intro before placed
            rw [siblings, ih, siblings, ih _ [_]]
            simp
      exact hdone before placed
  | cons node rest ih =>
      rw [List.cons_append, siblings, ih, siblings]
      cases hnamed : node.isNamed <;> simp [namedBack, hnamed]

/-- The children of a node are told by the node. -/
theorem children_detached {placed placed' : Placed} (h : placed.node = placed'.node) :
    placed.children.map detached = placed'.children.map detached := by
  rw [children, children, h]
  exact siblings_detached rfl rfl _

/-! ## Walks -/

/-- What was visited before stands in front of what is visited later. -/
theorem walk_from_visited (visited old stack : List Placed) :
    walkFrom (visited ++ old) stack = old.reverse ++ walkFrom visited stack := by
  fun_induction walkFrom visited stack with
  | case1 visited => simp [walkFrom]
  | case2 visited placed stack ih =>
      rw [walkFrom, ← ih]
      rfl

/-- A stack is visited part by part. -/
theorem walk_from_append (visited front back : List Placed) :
    walkFrom visited (front ++ back) = walkFrom visited front ++ walkFrom [] back := by
  fun_induction walkFrom visited front with
  | case1 visited => simpa using walk_from_visited [] visited back
  | case2 visited placed stack ih =>
      rw [List.cons_append, walkFrom, ← List.append_assoc, ih]

/-- A walk meets the same nodes under the same attributes as another one that begins with them. -/
theorem walk_from_detached {visited visited' stack stack' : List Placed}
    (hvisited : visited.map detached = visited'.map detached)
    (hstack : stack.map detached = stack'.map detached) :
    (walkFrom visited stack).map detached = (walkFrom visited' stack').map detached := by
  fun_induction walkFrom visited stack generalizing visited' stack' with
  | case1 visited =>
      have hnil : stack' = [] := by simpa using hstack.symm
      simp only [hnil, walkFrom, List.map_reverse, hvisited]
  | case2 visited placed stack ih =>
      cases stack' with
      | nil => cases hstack
      | cons placed' stack' =>
          rw [List.map_cons, List.map_cons] at hstack
          obtain ⟨hplaced, hrest⟩ := List.cons.inj hstack
          have hnode : placed.node = placed'.node := congrArg (·.node) hplaced
          rw [walkFrom]
          refine ih ?_ ?_
          · rw [List.map_cons, List.map_cons, hplaced, hvisited]
          · rw [List.map_append, List.map_append, children_detached hnode, hrest]

/-! ## The order of places -/

end Placed

namespace Node

mutual

/-- A node at its place and everything below it, in pre-order. -/
def places (above before : List Node) : Node → List Placed
  | node@⟨_, _, _, _, _, _, children⟩ =>
    ⟨node, before, above⟩ :: placesAmong (node :: above) [] children

/-- Some siblings at their places, each followed by everything below it. -/
def placesAmong (above before : List Node) : List Node → List Placed
  | [] => []
  | node :: rest =>
    node.places above before ++
      placesAmong above (if node.isNamed then node :: before else before) rest

end

theorem places_eq (above before : List Node) (node : Node) :
    node.places above before =
      ⟨node, before, above⟩ :: placesAmong (node :: above) [] node.children := by
  cases node
  rfl

/-- What lies above a place lies above the place where the walk began, or is met before it. -/
theorem above_of_mem_places {placed : Placed} {above before : List Node} {node inner : Node}
    (h : placed ∈ node.places above before) (hinner : inner ∈ placed.above) :
    inner ∈ above ∨ inner ∈ node.preorder := by
  induction node using size_induction generalizing above before with
  | step node ih =>
      rw [places_eq] at h
      rcases List.mem_cons.1 h with rfl | hbelow
      · exact .inl hinner
      · -- Among the children the node itself is one of those above.
        have hamong : ∀ (before : List Node) (nodes : List Node),
            (∀ child ∈ nodes, child ∈ node.children) →
              placed ∈ placesAmong (node :: above) before nodes →
                ∃ child ∈ node.children, inner ∈ node :: above ∨ inner ∈ child.preorder := by
          intro before nodes hnodes hmem
          induction nodes generalizing before with
          | nil => cases hmem
          | cons child rest ihrest =>
              rw [placesAmong] at hmem
              have hchild := hnodes child (List.mem_cons_self ..)
              rcases List.mem_append.1 hmem with hhead | htail
              · exact ⟨child, hchild, ih child (size_lt_of_mem_children hchild) hhead⟩
              · exact ihrest _ (fun other hother => hnodes other (List.mem_cons_of_mem _ hother))
                  htail
        obtain ⟨child, hchild, hfound⟩ := hamong [] node.children (fun _ h => h) hbelow
        rcases hfound with hup | hdown
        · rcases List.mem_cons.1 hup with rfl | habove
          · exact .inr (mem_preorder_self _)
          · exact .inl habove
        · exact .inr (mem_preorder.2 (.inr ⟨child, hchild, hdown⟩))

end Node

namespace Placed

/-- The places at and below a place. -/
def below (placed : Placed) : List Placed :=
  placed.node.places placed.above placed.before

theorem below_siblings (above before : List Node) (placed : List Placed) (nodes : List Node) :
    (siblings above before placed nodes).flatMap below =
      placed.reverse.flatMap below ++ Node.placesAmong above before nodes := by
  induction nodes generalizing before placed with
  | nil => rw [siblings, Node.placesAmong, List.append_nil]
  | cons node rest ih =>
      rw [siblings, ih, List.reverse_cons, List.flatMap_append, List.append_assoc,
        List.flatMap_singleton]
      rfl

/-- The stack holds, place by place, exactly what the walk has still to list. -/
theorem walk_from_places (visited stack : List Placed) :
    walkFrom visited stack = visited.reverse ++ stack.flatMap below := by
  fun_induction walkFrom visited stack with
  | case1 visited => simp
  | case2 visited placed stack ih =>
      rw [ih, List.flatMap_append, children, below_siblings, List.reverse_cons, List.flatMap_cons,
        below, Node.places_eq]
      simp

/-- Walking with a stack lists the places in recursive pre-order. -/
theorem walk_eq_places (placed : Placed) : placed.walk = placed.below := by
  rw [walk, walk_from_places]
  simp

/-- What lies above a place in a tree lies in the tree. -/
theorem mem_preorder_of_above {root inner : Node} {placed : Placed}
    (h : placed ∈ (ofRoot root).walk) (hinner : inner ∈ placed.above) : inner ∈ root.preorder := by
  rw [walk_eq_places] at h
  exact (Node.above_of_mem_places h hinner).resolve_left List.not_mem_nil

/-! ## Files -/

/-- The places in a file from which a query takes its matches, the file itself aside. -/
def inFile (frame : Node) (items : List Node) : List Placed :=
  walkFrom [] (ofRoot (frame.fileOf items)).children

theorem matching_file (frame : Node) (items : List Node) (kind : QueryKind) :
    (ofRoot (frame.fileOf items)).matching kind =
      (inFile frame items).filter fun placed => kind.isMatch placed.node := by
  have hroot : kind.isMatch (ofRoot (frame.fileOf items)).node = false := by cases kind <;> rfl
  have hwalk : (ofRoot (frame.fileOf items)).walk =
      ofRoot (frame.fileOf items) :: inFile frame items := by
    rw [walk, walkFrom, List.append_nil]
    exact walk_from_visited [] [_] _
  rw [matching, hwalk, List.filter_cons_of_neg (by simp [hroot])]

/-- In a file whose items are put behind those of another one stand first the places of that one. -/
theorem in_file_append (frame : Node) (front back : List Node) :
    ∃ later : List Placed, (inFile frame (front ++ back)).map detached =
        (inFile frame front).map detached ++ later.map detached ∧
      (Node.attributesAmong (namedBack front) = [] →
        later.map detached = (inFile frame back).map detached) := by
  have hchildren : (ofRoot (frame.fileOf (front ++ back))).children =
      siblings [frame.fileOf (front ++ back)] [] [] front ++
        siblings [frame.fileOf (front ++ back)] (namedBack front) [] back := by
    have happend := siblings_append [frame.fileOf (front ++ back)] [] [] front back
    rwa [List.append_nil] at happend
  refine ⟨walkFrom [] (siblings [frame.fileOf (front ++ back)] (namedBack front) [] back), ?_, ?_⟩
  · rw [inFile, hchildren, walk_from_append, List.map_append]
    congr 1
    exact walk_from_detached rfl (siblings_detached rfl rfl front)
  · exact fun hlast => walk_from_detached rfl (siblings_detached hlast rfl back)

/-- The matches of a query in such a file: those of the first file, and behind them, if it leaves no
attribute over, those of the second one. -/
theorem matching_file_append (frame : Node) (front back : List Node) (kind : QueryKind) :
    ∃ later : List Placed,
      ((ofRoot (frame.fileOf (front ++ back))).matching kind).map detached =
        ((ofRoot (frame.fileOf front)).matching kind).map detached ++ later ∧
      (Node.attributesAmong (namedBack front) = [] →
        later = ((ofRoot (frame.fileOf back)).matching kind).map detached) := by
  have hfilter : ∀ items, ((ofRoot (frame.fileOf items)).matching kind).map detached =
      ((inFile frame items).map detached).filter fun placed => kind.isMatch placed.node := by
    intro items
    rw [matching_file, List.filter_map]
    rfl
  obtain ⟨later, happend, hlater⟩ := in_file_append frame front back
  refine ⟨(later.map detached).filter fun placed => kind.isMatch placed.node, ?_, fun hlast => ?_⟩
  · rw [hfilter, hfilter, happend, List.filter_append]
  · rw [hfilter, hlater hlast]

end Placed

end ProgramInterface
