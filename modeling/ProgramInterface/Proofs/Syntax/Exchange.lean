import ProgramInterface.Proofs.Syntax.Code
import ProgramInterface.Proofs.Syntax.Positions

/-!
# Exchanging a part of a tree

Two trees differ in one part if `Exchange` relates them: what stands in the one at a position stands
otherwise in the other, and apart from that both are the same code. Of the nodes around the part only
the kind, naming and role are the same, since what is written in them is not. What is read from the
nodes of both trees differs by what is read from the parts (`Exchange.filter_map`), and the first node
of a class is the same unless it is around the part or in it (`Exchange.find_map`).
-/

namespace ProgramInterface

namespace Node

/-- Whether two nodes are of one kind and naming and play one role. -/
structure Alike (node other : Node) : Prop where
  kind : node.kind = other.kind
  isNamed : node.isNamed = other.isNamed
  role : node.role = other.role

/-- Whether `root'` is `root` with `part'` in the place of `part`. The position of `part` in `root` are
the indices of the children on the way to it; `around` are the nodes on the way in both trees, outermost
first. -/
inductive Exchange (part part' : Node) : List Nat → List (Node × Node) → Node → Node → Prop
  | here : Exchange part part' [] [] part part'
  | inside {position around root root' node node' front front' back back'} :
      root.Alike root' →
      root.children = front ++ node :: back →
      root'.children = front' ++ node' :: back' →
      codes false front = codes false front' →
      codes false back = codes false back' →
      Exchange part part' position around node node' →
      Exchange part part' (front.length :: position) ((root, root') :: around) root root'

/-- The parts at a position of two trees that differ in nothing else, and the nodes around them. -/
def exchangeAt? : List Nat → Node → Node → Option ((Node × Node) × List (Node × Node))
  | [], root, root' => some ((root, root'), [])
  | index :: position, root, root' =>
    match root.children.drop index, root'.children.drop index with
    | node :: back, node' :: back' =>
      if (root.kind = root'.kind ∧ root.isNamed = root'.isNamed ∧ root.role = root'.role) ∧
          codes false (root.children.take index) = codes false (root'.children.take index) ∧
          codes false back = codes false back' then
        (exchangeAt? position node node').map fun (parts, around) =>
          (parts, (root, root') :: around)
      else none
    | _, _ => none

/-- Comparing two trees along a position finds the parts in which they differ. -/
theorem exchange_of_at {position : List Nat} {root root' part part' : Node}
    {around : List (Node × Node)}
    (h : exchangeAt? position root root' = some ((part, part'), around)) :
    Exchange part part' position around root root' := by
  fun_induction exchangeAt? position root root' generalizing around with
  | case1 =>
      cases h
      exact .here
  | case2 index position root root' node back node' back' hdrop' hdrop hsame ih =>
      obtain ⟨⟨parts, inner⟩, hinner, heq⟩ := Option.map_eq_some_iff.1 h
      cases heq
      obtain ⟨⟨hkind, hnamed, hrole⟩, hfront, hback⟩ := hsame
      have hchildren : root.children = root.children.take index ++ node :: back := by
        rw [← hdrop, List.take_append_drop]
      have hchildren' : root'.children = root'.children.take index ++ node' :: back' := by
        rw [← hdrop', List.take_append_drop]
      have hlength : (root.children.take index).length = index := by
        have hlong : index < root.children.length := by
          by_contra hshort
          rw [List.drop_eq_nil_of_le (Nat.le_of_not_lt hshort)] at hdrop
          cases hdrop
        exact List.length_take_of_le (Nat.le_of_lt hlong)
      have hexchange := Exchange.inside ⟨hkind, hnamed, hrole⟩ hchildren hchildren' hfront hback
        (ih hinner)
      rwa [hlength] at hexchange
  | case3 => cases h
  | case4 => cases h

/-! ## First nodes -/

/-- The first node of a class with its position. -/
def firstAt? (p : Node → Bool) (root : Node) : Option (List Nat × Node) :=
  root.located.find? (p ·.2)

/-- Behind siblings in which the class is not met, the first node below a sibling is the first one. -/
theorem first_at_below {p : Node → Bool} {root node : Node} {front back : List Node}
    (hchildren : root.children = front ++ node :: back) (hroot : p root = false)
    (hfront : (preorders front).find? p = none) {position : List Nat} {inner : Node}
    (h : node.firstAt? p = some (position, inner)) :
    root.firstAt? p = some (front.length :: position, inner) := by
  have hnone : (locatedFrom 0 front).find? (p ·.2) = none := by
    rw [← map_snd_located_from 0, List.find?_map, Option.map_eq_none_iff] at hfront
    exact hfront
  rw [firstAt?, located_eq, List.find?_cons_of_neg (by simp [hroot]), hchildren,
    located_from_append, List.find?_append, hnone, Option.none_or, locatedFrom, List.find?_append,
    List.find?_map, Nat.zero_add]
  show ((node.firstAt? p).map _).or _ = _
  rw [h]
  rfl

/-! ## What is read from both trees -/

variable {part part' root root' : Node} {position : List Nat} {around : List (Node × Node)}

/-- The nodes at the top are alike if the parts are. -/
theorem Exchange.alike (h : Exchange part part' position around root root')
    (hpart : part.Alike part') : root.Alike root' := by
  cases h with
  | here => exact hpart
  | inside halike => exact halike

variable {α : Type} {f : Node → Option α}

/-- What siblings and their code agree in is the same for siblings that are the same code. -/
theorem eq_of_codes {F : List Node → α}
    (hcode : ∀ nodes : List Node, (∀ node ∈ nodes, node.Tidy) → F (codes false nodes) = F nodes)
    {nodes others : List Node} (hnodes : ∀ node ∈ nodes, node.Tidy)
    (hothers : ∀ node ∈ others, node.Tidy) (h : codes false nodes = codes false others) :
    F nodes = F others := by
  rw [← hcode nodes hnodes, h, hcode others hothers]

theorem filter_map_same {nodes others : List Node}
    (hread : ∀ nodes : List Node, (∀ node ∈ nodes, node.Tidy) → ReadsCode f nodes)
    (hnodes : ∀ node ∈ nodes, node.Tidy) (hothers : ∀ node ∈ others, node.Tidy)
    (h : codes false nodes = codes false others) :
    (preorders nodes).filterMap f = (preorders others).filterMap f := by
  refine eq_of_codes (F := fun nodes => (preorders nodes).filterMap f) (fun nodes htidy => ?_)
    hnodes hothers h
  refine filter_map_codes false nodes htidy (hread _ fun inner hinner => ?_)
  obtain ⟨node, hnode, hbelow⟩ := mem_preorders.1 hinner
  exact (htidy node hnode).below hbelow

/-- What is read from a tree in which nothing is read from the top node. -/
theorem filter_map_around {node : Node} {front back : List Node}
    (h : root.children = front ++ node :: back) (hroot : f root = none) :
    root.preorder.filterMap f = (preorders front).filterMap f ++ node.preorder.filterMap f ++
      (preorders back).filterMap f := by
  rw [preorder_eq, h, preorders_append, preorders, List.filterMap_cons, hroot,
    List.filterMap_append, List.filterMap_append, List.append_assoc]

/-- The children of a tidy tree on both sides of one of them. -/
theorem Tidy.sides {node : Node} {front back : List Node} (hroot : root.Tidy)
    (h : root.children = front ++ node :: back) :
    (∀ child ∈ front, child.Tidy) ∧ node.Tidy ∧ ∀ child ∈ back, child.Tidy := by
  have hchild : ∀ child ∈ front ++ node :: back, child.Tidy := fun child hchild =>
    hroot.child (h ▸ hchild)
  exact ⟨fun child hmem => hchild child (by simp [hmem]), hchild node (by simp),
    fun child hmem => hchild child (by simp [hmem])⟩

/-- What is read from the nodes of both trees is the same up to what is read from the parts, if nothing
is read from the nodes around them. -/
theorem Exchange.filter_map (h : Exchange part part' position around root root')
    (hread : ∀ nodes : List Node, (∀ node ∈ nodes, node.Tidy) → ReadsCode f nodes)
    (haround : ∀ pair ∈ around, f pair.1 = none ∧ f pair.2 = none)
    (hroot : root.Tidy) (hroot' : root'.Tidy) :
    ∃ front back, root.preorder.filterMap f = front ++ part.preorder.filterMap f ++ back ∧
      root'.preorder.filterMap f = front ++ part'.preorder.filterMap f ++ back := by
  induction h with
  | here => exact ⟨[], [], by simp, by simp⟩
  | @inside position around root root' node node' front front' back back' _ hchildren hchildren'
      hfront hback _ ih =>
      obtain ⟨hf, hnode, hb⟩ := hroot.sides hchildren
      obtain ⟨hf', hnode', hb'⟩ := hroot'.sides hchildren'
      obtain ⟨hnone, hnone'⟩ := haround _ (List.mem_cons_self ..)
      obtain ⟨before, behind, hbelow, hbelow'⟩ := ih
        (fun pair hpair => haround pair (List.mem_cons_of_mem _ hpair)) hnode hnode'
      rw [filter_map_around hchildren hnone, filter_map_around hchildren' hnone', hbelow, hbelow',
        filter_map_same hread hf hf' hfront, filter_map_same hread hb hb' hback]
      refine ⟨(preorders front').filterMap f ++ before, behind ++ (preorders back').filterMap f,
        ?_, ?_⟩ <;> simp only [List.append_assoc]

/-- What is read from the first node of a class is the same in both trees, if no node of the class is in
a part and the first one is not around it. -/
theorem Exchange.find_map {p : Node → Bool} {g : Node → α}
    (h : Exchange part part' position around root root')
    (hread : ∀ nodes : List Node, (∀ node ∈ nodes, node.Tidy) →
      ReadsCode (fun node => if p node then some (g node) else none) nodes)
    (haround : ∀ pair ∈ around, p pair.1 = p pair.2)
    (hpart : part.preorder.find? p = none) (hpart' : part'.preorder.find? p = none)
    (hapart : ∀ first ∈ root.firstAt? p, ¬ first.1 <+: position)
    (hroot : root.Tidy) (hroot' : root'.Tidy) :
    (root.preorder.find? p).map g = (root'.preorder.find? p).map g := by
  induction h with
  | here => rw [hpart, hpart']
  | @inside position around root root' node node' front front' back back' _ hchildren hchildren'
      hfront hback _ ih =>
      obtain ⟨hf, hnode, hb⟩ := hroot.sides hchildren
      obtain ⟨hf', hnode', hb'⟩ := hroot'.sides hchildren'
      have htop : p root = false := by
        cases htop : p root with
        | false => rfl
        | true =>
            -- The top node would be the first one, and it is around the part.
            have hfirst : root.firstAt? p = some ([], root) := by
              rw [firstAt?, located_eq]
              exact List.find?_cons_of_pos htop
            exact absurd List.nil_prefix (hapart _ hfirst)
      have htop' : p root' = false := (haround _ (List.mem_cons_self ..)).symm.trans htop
      have hsame {nodes others : List Node} (hn : ∀ node ∈ nodes, node.Tidy)
          (ho : ∀ node ∈ others, node.Tidy) (h : codes false nodes = codes false others) :
          ((preorders nodes).find? p).map g = ((preorders others).find? p).map g := by
        rw [find_map_eq, find_map_eq, filter_map_same hread hn ho h]
      have hsides {root node : Node} {front back : List Node}
          (hchildren : root.children = front ++ node :: back) (htop : p root = false) :
          (root.preorder.find? p).map g = (((preorders front).find? p).map g).or
            (((node.preorder.find? p).map g).or (((preorders back).find? p).map g)) := by
        rw [preorder_eq, hchildren, preorders_append, preorders,
          List.find?_cons_of_neg (by simp [htop]), List.find?_append, List.find?_append,
          Option.map_or, Option.map_or]
      rw [hsides hchildren htop, hsides hchildren' htop', ← hsame hf hf' hfront,
        ← hsame hb hb' hback]
      cases hfound : (preorders front).find? p with
      | some found => rfl
      | none =>
          rw [ih (fun pair hpair => haround pair (List.mem_cons_of_mem _ hpair)) ?_ hnode hnode']
          intro first hfirst hprefix
          exact hapart _ (first_at_below hchildren htop hfound hfirst)
            (List.cons_prefix_cons.2 ⟨rfl, hprefix⟩)

end Node

end ProgramInterface
