import ProgramInterface.Proofs.Catalogue.Instructions
import ProgramInterface.Proofs.Syntax.Places

/-!
# The item that an attribute belongs to

An attribute belongs to the next item behind it: to the next named sibling that is neither an attribute
nor a comment (`Node.IsWrittenAbove`). Read from left to right, siblings pass attributes on until an item
takes them (`Node.passOn`), and comments pass on whatever reaches them. So every attribute counts for one
item, comments do not matter, and what is written above one item makes no instruction of another
(`attributes_of_one_item`).
-/

namespace ProgramInterface

namespace Node

/-- Whether a node takes the attributes in front of it: a named one that is neither an attribute nor a
comment. -/
def IsItem (node : Node) : Prop :=
  node.isNamed = true ∧ node.kind ≠ .attributeItem ∧ node.kind.isComment = false

instance (node : Node) : Decidable node.IsItem :=
  inferInstanceAs (Decidable (_ ∧ _))

/-- Whether an item stands at a position among some siblings. -/
def IsItemAt (siblings : List Node) (position : Nat) : Prop :=
  ∃ node, siblings[position]? = some node ∧ node.IsItem

/-- Whether the sibling at one position is an attribute that is written above the one at another: it
stands in front of it, with no item between them. -/
structure IsWrittenAbove (siblings : List Node) (position item : Nat) : Prop where
  before : position < item
  marked : ∃ marker, siblings[position]? = some marker ∧ marker.isNamed = true ∧
    marker.kind = .attributeItem
  between : ∀ other, position < other → other < item → ¬ IsItemAt siblings other

/-- The attributes that wait for an item behind a sibling, nearest first, given those that wait in front
of it. -/
def passOn (waiting : List Node) (sibling : Node) : List Node :=
  if sibling.isNamed then
    if sibling.kind = .attributeItem then sibling :: waiting
    else if sibling.kind.isComment then waiting
    else []
  else waiting

/-- The attributes that wait in front of a position. -/
def waitingAt (siblings : List Node) (position : Nat) : List Node :=
  (siblings.take position).foldl passOn []

variable {siblings waiting : List Node} {node : Node} {position item : Nat}

/-! ## One sibling -/

theorem pass_on_item (h : node.IsItem) (waiting : List Node) : passOn waiting node = [] := by
  simp [passOn, h.1, h.2.1, h.2.2]

theorem pass_on_attribute (hnamed : node.isNamed = true) (hkind : node.kind = .attributeItem)
    (waiting : List Node) : passOn waiting node = node :: waiting := by
  simp [passOn, hnamed, hkind]

theorem pass_on_other (hitem : ¬ node.IsItem)
    (hattribute : ¬ (node.isNamed = true ∧ node.kind = .attributeItem)) (waiting : List Node) :
    passOn waiting node = waiting := by
  unfold passOn
  split
  · rename_i hnamed
    have hkind : node.kind ≠ .attributeItem := fun hkind => hattribute ⟨hnamed, hkind⟩
    rw [if_neg hkind, if_pos]
    simpa [IsItem, hnamed, hkind] using hitem
  · rfl

theorem pass_on_comment (h : node.kind.isComment = true) (waiting : List Node) :
    passOn waiting node = waiting := by
  refine pass_on_other (fun hitem => ?_) (fun hattribute => ?_) waiting
  · exact Bool.false_ne_true (hitem.2.2.symm.trans h)
  · rw [hattribute.2] at h
    cases h

/-- The backward search finds what the siblings pass on. -/
theorem attributes_among_next (before : List Node) (node : Node) :
    attributesAmong (if node.isNamed then node :: before else before) =
      passOn (attributesAmong before) node := by
  unfold passOn
  split
  · rw [attributesAmong]
  · rfl

theorem waiting_succ (h : siblings[position]? = some node) :
    waitingAt siblings (position + 1) = passOn (waitingAt siblings position) node := by
  rw [waitingAt, List.take_add_one, h, List.foldl_append]
  rfl

/-! ## Positions of attributes -/

theorem is_item_at_iff (h : siblings[position]? = some node) :
    IsItemAt siblings position ↔ node.IsItem := by
  simp [IsItemAt, h]

/-- What is written above a sibling that follows another one. -/
theorem written_above_succ (h : siblings[item]? = some node) :
    IsWrittenAbove siblings position (item + 1) ↔
      (position = item ∧ node.isNamed = true ∧ node.kind = .attributeItem) ∨
        (IsWrittenAbove siblings position item ∧ ¬ node.IsItem) := by
  constructor
  · rintro ⟨hbefore, hattribute, hbetween⟩
    rcases Nat.lt_or_eq_of_le (Nat.le_of_lt_succ hbefore) with hlt | rfl
    · refine .inr ⟨⟨hlt, hattribute, fun other hlow hhigh => ?_⟩, ?_⟩
      · exact hbetween other hlow (Nat.lt_succ_of_lt hhigh)
      · exact mt (is_item_at_iff h).2 (hbetween item hlt (Nat.lt_succ_self item))
    · obtain ⟨marker, hmarker, hkind⟩ := hattribute
      cases h.symm.trans hmarker
      exact .inl ⟨rfl, hkind⟩
  · rintro (⟨rfl, hkind⟩ | ⟨⟨hbefore, hattribute, hbetween⟩, hitem⟩)
    · exact ⟨Nat.lt_succ_self position, ⟨node, h, hkind⟩, fun other hlow hhigh => by omega⟩
    · refine ⟨Nat.lt_succ_of_lt hbefore, hattribute, fun other hlow hhigh => ?_⟩
      rcases Nat.lt_or_eq_of_le (Nat.le_of_lt_succ hhigh) with hlt | rfl
      · exact hbetween other hlow hlt
      · exact mt (is_item_at_iff h).1 hitem

/-- The attributes that wait in front of a sibling are those written above it, nearest first. -/
theorem waiting_positions (hitem : item ≤ siblings.length) :
    ∃ positions : List Nat, positions.Pairwise (· > ·) ∧
      (∀ position, position ∈ positions ↔ IsWrittenAbove siblings position item) ∧
      positions.map (siblings[·]?) = (waitingAt siblings item).map some := by
  induction item with
  | zero =>
      refine ⟨[], .nil, fun position => iff_of_false List.not_mem_nil ?_, rfl⟩
      exact fun h => Nat.not_lt_zero _ h.before
  | succ item ih =>
      obtain ⟨positions, horder, hpositions, hmarkers⟩ := ih (Nat.le_of_succ_le hitem)
      have hnode : siblings[item]? = some siblings[item] := List.getElem?_eq_getElem hitem
      generalize siblings[item] = node at hnode
      simp only [written_above_succ hnode, waiting_succ hnode]
      by_cases hstop : node.IsItem
      · rw [pass_on_item hstop]
        exact ⟨[], .nil, fun position => by simp [hstop, hstop.2.1], rfl⟩
      by_cases hattribute : node.isNamed = true ∧ node.kind = .attributeItem
      · rw [pass_on_attribute hattribute.1 hattribute.2]
        refine ⟨item :: positions, List.pairwise_cons.2 ⟨fun position hposition => ?_, horder⟩,
          fun position => ?_, ?_⟩
        · exact ((hpositions position).1 hposition).before
        · simp [hpositions, hstop, hattribute]
        · simp [hmarkers, hnode]
      · rw [pass_on_other hstop hattribute]
        exact ⟨positions, horder, fun position => by simp [hpositions, hstop, hattribute], hmarkers⟩

theorem mem_waiting_iff (hitem : item ≤ siblings.length) {marker : Node} :
    marker ∈ waitingAt siblings item ↔
      ∃ place, IsWrittenAbove siblings place item ∧ siblings[place]? = some marker := by
  obtain ⟨positions, _, hpositions, hmarkers⟩ := waiting_positions hitem
  have hmem : marker ∈ waitingAt siblings item ↔ some marker ∈ positions.map (siblings[·]?) := by
    rw [hmarkers]
    simp
  rw [hmem, List.mem_map]
  simp only [hpositions]

theorem IsWrittenAbove.not_item (h : IsWrittenAbove siblings position item) :
    ¬ IsItemAt siblings position := by
  rintro ⟨node, hnode, hitem⟩
  obtain ⟨marker, hmarker, _, hkind⟩ := h.marked
  cases hnode.symm.trans hmarker
  exact hitem.2.1 hkind

/-- An attribute is written above one item only. -/
theorem IsWrittenAbove.unique {other : Nat} (h : IsWrittenAbove siblings position item)
    (hother : IsWrittenAbove siblings position other) (hitem : IsItemAt siblings item)
    (hotherItem : IsItemAt siblings other) : item = other := by
  rcases Nat.lt_trichotomy item other with hlt | rfl | hlt
  · exact absurd hitem (hother.between item h.before hlt)
  · rfl
  · exact absurd hotherItem (h.between other hother.before hlt)

/-! ## Siblings that are replaced -/

/-- Behind an item nothing is left of what waited in front of it. -/
theorem waiting_of_item (h : IsItemAt siblings position) (hbehind : position < item) :
    waitingAt siblings item = ((siblings.take item).drop (position + 1)).foldl passOn [] := by
  obtain ⟨node, hnode, hitem⟩ := h
  have hfront : (siblings.take item).take (position + 1) = siblings.take (position + 1) := by
    rw [List.take_take, Nat.min_eq_left hbehind]
  have hempty : (siblings.take (position + 1)).foldl passOn [] = [] := by
    rw [← waitingAt, waiting_succ hnode, pass_on_item hitem]
  calc waitingAt siblings item
      = ((siblings.take item).take (position + 1) ++
          (siblings.take item).drop (position + 1)).foldl passOn [] := by
        rw [List.take_append_drop, waitingAt]
    _ = ((siblings.take item).drop (position + 1)).foldl passOn [] := by
        rw [List.foldl_append, hfront, hempty]

/-- An item does not notice what stands in place of an attribute that is written above another one. -/
theorem waiting_set {other : Nat} (h : IsWrittenAbove siblings position item)
    (hitem : IsItemAt siblings item) (hother : IsItemAt siblings other) (hne : other ≠ item)
    (sibling : Node) : waitingAt (siblings.set position sibling) other = waitingAt siblings other := by
  rcases Nat.lt_or_ge position other with hlt | hge
  · have hnot : ¬ IsWrittenAbove siblings position other := fun habove =>
      hne (habove.unique h hother hitem)
    -- It does not belong to the other item, so some item stands between them.
    have hstop : ∃ stop, position < stop ∧ stop < other ∧ IsItemAt siblings stop :=
      Classical.byContradiction fun hnone => hnot
        ⟨hlt, h.marked, fun stop hlow hhigh hstop => hnone ⟨stop, hlow, hhigh, hstop⟩⟩
    obtain ⟨stop, hlow, hhigh, hstop⟩ := hstop
    have hstop' : IsItemAt (siblings.set position sibling) stop := by
      rwa [IsItemAt, List.getElem?_set_ne (Nat.ne_of_lt hlow)]
    rw [waiting_of_item hstop hhigh, waiting_of_item hstop' hhigh, List.take_set,
      List.drop_set_of_lt (Nat.lt_succ_of_lt hlow)]
  · rw [waitingAt, List.take_set_of_le hge, waitingAt]

/-! ## Comments -/

/-- Some siblings without the comments among them. -/
def withoutComments (siblings : List Node) : List Node :=
  siblings.filter fun node => !node.kind.isComment

/-- Some siblings, each with the attributes that wait in front of it. -/
def withWaiting (waiting : List Node) : List Node → List (Node × List Node)
  | [] => []
  | node :: rest => (node, waiting) :: withWaiting (passOn waiting node) rest

/-- Whether nodes that count as the same agree in what attributes are told and read by; where they stand
may differ. -/
structure KeepsMarks (same : Node → Node → Prop) : Prop where
  isNamed : ∀ node other, same node other → node.isNamed = other.isNamed
  kind : ∀ node other, same node other → node.kind = other.kind
  text : ∀ node other, same node other → node.text = other.text

/-- Whether attributes are told and read alike in two nodes. -/
def SameMarks (node other : Node) : Prop :=
  node.isNamed = other.isNamed ∧ node.kind = other.kind ∧ node.text = other.text

instance : DecidableRel SameMarks :=
  fun _ _ => inferInstanceAs (Decidable (_ ∧ _ ∧ _))

theorem keeps_same_marks : KeepsMarks SameMarks :=
  ⟨fun _ _ h => h.1, fun _ _ h => h.2.1, fun _ _ h => h.2.2⟩

section
variable {same : Node → Node → Prop} (hsame : KeepsMarks same)
include hsame

theorem KeepsMarks.pass_on {node other : Node} {waiting waiting' : List Node} (h : same node other)
    (hwaiting : List.Forall₂ same waiting waiting') :
    List.Forall₂ same (passOn waiting node) (passOn waiting' other) := by
  unfold passOn
  rw [← hsame.isNamed node other h, ← hsame.kind node other h]
  split
  · split
    · exact .cons h hwaiting
    · split
      · exact hwaiting
      · exact .nil
  · exact hwaiting

theorem KeepsMarks.with_waiting {nodes others waiting waiting' : List Node}
    (h : List.Forall₂ same nodes others) (hwaiting : List.Forall₂ same waiting waiting') :
    List.Forall₂ (fun entry entry' => same entry.1 entry'.1 ∧ List.Forall₂ same entry.2 entry'.2)
      (withWaiting waiting nodes) (withWaiting waiting' others) := by
  induction h generalizing waiting waiting' with
  | nil => exact .nil
  | cons hnode _ ih => exact .cons ⟨hnode, hwaiting⟩ (ih (hsame.pass_on hnode hwaiting))

theorem KeepsMarks.derives_serialization {nodes others : List Node}
    (h : List.Forall₂ same nodes others) :
    nodes.any derivesSerialization = others.any derivesSerialization := by
  induction h with
  | nil => rfl
  | @cons node other _ _ hnode _ ih =>
      have hmarker : node.derivesSerialization = other.derivesSerialization := by
        simp only [derivesSerialization, mentions, hsame.text node other hnode]
      rw [List.any_cons, List.any_cons, hmarker, ih]

end

end Node

namespace Placed

/-! ## Children -/

theorem siblings_cons (above before : List Node) (node : Node) (rest : List Node) :
    siblings above before [] (node :: rest) = ⟨node, before, above⟩ ::
      siblings above (if node.isNamed then node :: before else before) [] rest := by
  have happend := siblings_append above before [] [node] rest
  rw [List.singleton_append] at happend
  rw [happend]
  cases hnamed : node.isNamed <;> simp [siblings, namedBack, hnamed]

theorem get_siblings (above before nodes : List Node) {position : Nat} {node : Node}
    (h : nodes[position]? = some node) :
    ∃ child, (siblings above before [] nodes)[position]? = some child ∧ child.node = node ∧
      child.attributes =
        (nodes.take position).foldl Node.passOn (Node.attributesAmong before) := by
  induction nodes generalizing before position with
  | nil => cases h
  | cons first rest ih =>
      rw [siblings_cons]
      cases position with
      | zero =>
          cases h
          exact ⟨_, rfl, rfl, rfl⟩
      | succ position =>
          obtain ⟨child, hchild, hnode, hattributes⟩ := ih _ h
          refine ⟨child, hchild, hnode, ?_⟩
          rw [hattributes, Node.attributes_among_next]
          rfl

/-- A child at its place has the attributes that wait in front of it. -/
theorem get_child (parent : Placed) {position : Nat} {node : Node}
    (h : parent.node.children[position]? = some node) :
    ∃ child, parent.children[position]? = some child ∧ child.node = node ∧
      child.attributes = Node.waitingAt parent.node.children position :=
  get_siblings _ [] _ h

/-- Children that are no comments, as the siblings without comments tell them. -/
theorem siblings_without_comments (above before nodes : List Node) :
    ((siblings above before [] nodes).filter fun child => !child.node.kind.isComment).map
        (fun child => (child.node, child.attributes)) =
      Node.withWaiting (Node.attributesAmong before) (Node.withoutComments nodes) := by
  induction nodes generalizing before with
  | nil => rfl
  | cons node rest ih =>
      rw [siblings_cons, Node.withoutComments]
      cases hcomment : node.kind.isComment with
      | true =>
          rw [List.filter_cons_of_neg (by simp [hcomment]), ih,
            List.filter_cons_of_neg (by simp [hcomment]), Node.attributes_among_next,
            Node.pass_on_comment hcomment, Node.withoutComments]
      | false =>
          rw [List.filter_cons_of_pos (by simp [hcomment]), List.map_cons, ih,
            List.filter_cons_of_pos (by simp [hcomment]), Node.attributes_among_next,
            Node.withWaiting, Node.withoutComments]
          rfl

/-- Whether two items count as the same and so do their attributes, which then derive the same. -/
structure Alike (same : Node → Node → Prop) (item other : Placed) : Prop where
  node : same item.node other.node
  attributes : List.Forall₂ same item.attributes other.attributes
  isSerializable : item.isSerializable = other.isSerializable

/-- The children of a node that are no comments. -/
def codeChildren (parent : Placed) : List Placed :=
  parent.children.filter fun child => !child.node.kind.isComment

/-- Nodes with the same children apart from comments have the same children with the same
attributes. -/
theorem code_children_alike {same : Node → Node → Prop} (hsame : Node.KeepsMarks same)
    {parent other : Placed} (h : List.Forall₂ same (Node.withoutComments parent.node.children)
      (Node.withoutComments other.node.children)) :
    List.Forall₂ (Alike same) parent.codeChildren other.codeChildren := by
  have hentries := hsame.with_waiting h .nil
  rw [show ([] : List Node) = Node.attributesAmong [] from rfl,
    ← siblings_without_comments (parent.node :: parent.above),
    ← siblings_without_comments (other.node :: other.above), List.forall₂_map_left_iff,
    List.forall₂_map_right_iff] at hentries
  exact hentries.imp fun _ _ ⟨hnode, hattributes⟩ =>
    ⟨hnode, hattributes, hsame.derives_serialization hattributes⟩

/-! ## Attributes of a child -/

variable {parent : Placed} {position place item other : Nat} {node : Node}

/-- The children at some positions of a node are the attributes of a child. -/
structure OwnAttributes (parent : Placed) (position : Nat) (child : Placed)
    (positions : List Nat) : Prop where
  nearestFirst : positions.Pairwise (· > ·)
  writtenAbove : ∀ place, place ∈ positions ↔
    Node.IsWrittenAbove parent.node.children place position
  attributes : positions.map (parent.node.children[·]?) = child.attributes.map some

/-- A child has the attributes that are written above it, and is serializable if one of them says so. -/
theorem child_attributes (h : parent.node.children[position]? = some node) :
    ∃ child, parent.children[position]? = some child ∧ child.node = node ∧
      (∃ positions, OwnAttributes parent position child positions) ∧
      (child.isSerializable = true ↔ ∃ place marker,
        Node.IsWrittenAbove parent.node.children place position ∧
        parent.node.children[place]? = some marker ∧
        ∀ word ∈ ["derive", "BorshSerialize", "BorshDeserialize"],
          word.toList <:+: marker.text.toList) := by
  obtain ⟨child, hchild, hself, hattributes⟩ := parent.get_child h
  have hposition := Nat.le_of_lt (List.getElem?_eq_some_iff.1 h).1
  refine ⟨child, hchild, hself, ?_, ?_⟩
  · obtain ⟨positions, horder, hpositions, hmarkers⟩ := Node.waiting_positions hposition
    exact ⟨positions, horder, hpositions, hattributes ▸ hmarkers⟩
  · rw [is_serializable_iff, DerivesBoth, hattributes]
    simp only [Node.mem_waiting_iff hposition]
    constructor
    · rintro ⟨marker, ⟨place, habove, hmarker⟩, hwords⟩
      exact ⟨place, marker, habove, hmarker, hwords⟩
    · rintro ⟨place, marker, habove, hmarker, hwords⟩
      exact ⟨marker, ⟨place, habove, hmarker⟩, hwords⟩

/-- A node with other children at the same place. -/
def withChildren (parent : Placed) (children : List Node) : Placed :=
  { parent with node := { parent.node with children } }

/-- Whether two places hold the same node with the same attributes, which then stands for the same
instruction, if for any. -/
structure SameReading (item other : Placed) : Prop where
  node : item.node = other.node
  attributes : item.attributes = other.attributes
  instruction : ∀ mode account, instructionOf? mode account item = instructionOf? mode account other

theorem same_reading_of_eq {item other : Placed} (hnode : item.node = other.node)
    (hattributes : item.attributes = other.attributes) : SameReading item other := by
  refine ⟨hnode, hattributes, fun mode account => ?_⟩
  rw [instructionOf?, instructionOf?, hnode, isSerializable, isSerializable, hattributes]

/-- Whatever stands in place of an attribute written above one item, other items are read as before. -/
theorem child_set (h : Node.IsWrittenAbove parent.node.children place item)
    (hitem : Node.IsItemAt parent.node.children item)
    (hother : Node.IsItemAt parent.node.children other) (hne : other ≠ item) (sibling : Node) :
    ∃ child child', parent.children[other]? = some child ∧
      (parent.withChildren (parent.node.children.set place sibling)).children[other]? =
        some child' ∧ SameReading child child' := by
  obtain ⟨node, hnode, _⟩ := id hother
  have hapart : place ≠ other := fun heq => h.not_item (heq ▸ hother)
  have hnode' : (parent.node.children.set place sibling)[other]? = some node := by
    rwa [List.getElem?_set_ne hapart]
  obtain ⟨child, hchild, hself, hattributes⟩ := parent.get_child hnode
  obtain ⟨child', hchild', hself', hattributes'⟩ :=
    (parent.withChildren (parent.node.children.set place sibling)).get_child hnode'
  refine ⟨child, child', hchild, hchild', same_reading_of_eq (hself.trans hself'.symm) ?_⟩
  rw [hattributes, hattributes']
  exact (Node.waiting_set h hitem hother hne sibling).symm

end Placed

/-- The attributes of a child are those written above it, nearest first, and each is written above one
item only. Comments that come or go change no attributes, nor whether they derive the serialization
traits; and whatever stands in place of an attribute written above one item, every other item keeps its
attributes and stands for the same instruction, if for any. -/
theorem attributes_of_one_item (parent : Placed) :
    (∀ position node, parent.node.children[position]? = some node →
      ∃ child, parent.children[position]? = some child ∧ child.node = node ∧
        (∃ positions, Placed.OwnAttributes parent position child positions) ∧
        (child.isSerializable = true ↔ ∃ place marker,
          Node.IsWrittenAbove parent.node.children place position ∧
          parent.node.children[place]? = some marker ∧
          ∀ word ∈ ["derive", "BorshSerialize", "BorshDeserialize"],
            word.toList <:+: marker.text.toList)) ∧
    (∀ place item other, Node.IsWrittenAbove parent.node.children place item →
      Node.IsWrittenAbove parent.node.children place other →
      Node.IsItemAt parent.node.children item → Node.IsItemAt parent.node.children other →
      item = other) ∧
    (∀ same, Node.KeepsMarks same → ∀ other : Placed,
      List.Forall₂ same (Node.withoutComments parent.node.children)
        (Node.withoutComments other.node.children) →
      List.Forall₂ (Placed.Alike same) parent.codeChildren other.codeChildren) ∧
    (∀ place item other, Node.IsWrittenAbove parent.node.children place item →
      Node.IsItemAt parent.node.children item → Node.IsItemAt parent.node.children other →
      other ≠ item → ∀ sibling, ∃ child child', parent.children[other]? = some child ∧
        (parent.withChildren (parent.node.children.set place sibling)).children[other]? =
          some child' ∧ Placed.SameReading child child') :=
  ⟨fun _ _ => Placed.child_attributes,
    fun _ _ _ habove hother => habove.unique hother,
    fun _ hsame _ => Placed.code_children_alike hsame,
    fun _ _ _ habove hitem hother hne => Placed.child_set habove hitem hother hne⟩

/-- A derive belongs to the struct behind it, also with comments around it, and not to the next one. -/
theorem attributes_of_one_item_commented :
    let plain := Grammar.sourceFile "#[derive(BorshSerialize,BorshDeserialize)]struct A;struct B;"
    let commented := Grammar.sourceFile
      "/*a*/#[derive(BorshSerialize,BorshDeserialize)]/*b*/struct A;/*c*/struct B;"
    List.Forall₂ (Placed.Alike Node.SameMarks) (Placed.ofRoot plain).codeChildren
        (Placed.ofRoot commented).codeChildren ∧
      (Placed.ofRoot plain).codeChildren.map (·.isSerializable) = [false, true, false] := by
  intro plain commented
  obtain ⟨_, _, hcomments, _⟩ := attributes_of_one_item (Placed.ofRoot plain)
  have hcode : List.Forall₂ Node.SameMarks (Node.withoutComments plain.children)
      (Node.withoutComments commented.children) := by decide +kernel
  exact ⟨hcomments _ Node.keeps_same_marks (Placed.ofRoot commented) hcode, by decide +kernel⟩

end ProgramInterface
