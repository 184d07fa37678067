import ProgramInterface.Proofs.Syntax.Preorder

/-!
# Positions in a syntax tree

The position of a node in a tree are the indices of the children on the way to it. In lexicographic
order a position comes before those below it, and those below a child come before those below a later
one, so recursive pre-order is the order of positions (`located_sorted`). `ListsInOrder` says that some
nodes are those of a tree that satisfy a condition, each once, in that order.
-/

namespace ProgramInterface

namespace Node

/-- The node at a position. -/
def at? : Node → List Nat → Option Node
  | node, [] => some node
  | node, index :: position => node.children[index]?.bind fun child => child.at? position

mutual

/-- A node and its descendants in pre-order, each with its position. -/
def located : Node → List (List Nat × Node)
  | node@⟨_, _, _, _, _, _, children⟩ => ([], node) :: locatedFrom 0 children

/-- Some siblings and their descendants with their positions, given the index of the first sibling. -/
def locatedFrom (index : Nat) : List Node → List (List Nat × Node)
  | [] => []
  | node :: rest =>
    node.located.map (fun (position, inner) => (index :: position, inner)) ++
      locatedFrom (index + 1) rest

end

theorem located_eq (node : Node) : node.located = ([], node) :: locatedFrom 0 node.children := by
  cases node
  rfl

mutual

/-- The nodes that have positions are those of the tree, in pre-order. -/
theorem map_snd_located : ∀ node : Node, node.located.map (·.2) = node.preorder
  | ⟨_, _, _, _, _, _, children⟩ => congrArg (_ :: ·) (map_snd_located_from 0 children)

theorem map_snd_located_from (index : Nat) : ∀ nodes : List Node,
    (locatedFrom index nodes).map (·.2) = preorders nodes
  | [] => rfl
  | node :: rest => by
    have hnode := map_snd_located node
    have hrest := map_snd_located_from (index + 1) rest
    rw [locatedFrom, List.map_append, List.map_map, hrest, preorders, ← hnode]
    rfl

end

theorem located_from_append (index : Nat) (front back : List Node) :
    locatedFrom index (front ++ back) =
      locatedFrom index front ++ locatedFrom (index + front.length) back := by
  induction front generalizing index with
  | nil => rfl
  | cons node rest ih =>
      rw [List.cons_append, locatedFrom, ih, locatedFrom, List.append_assoc, List.length_cons,
        Nat.add_right_comm, Nat.add_assoc]

/-! ## The order of positions -/

/-- The positions below siblings begin with the indices of these. -/
theorem exists_of_mem_located_from {index : Nat} {nodes : List Node} {entry : List Nat × Node}
    (h : entry ∈ locatedFrom index nodes) :
    ∃ first position, entry.1 = first :: position ∧ index ≤ first := by
  induction nodes generalizing index with
  | nil => cases h
  | cons node rest ih =>
      rw [locatedFrom] at h
      rcases List.mem_append.1 h with hnode | hrest
      · obtain ⟨⟨position, inner⟩, _, rfl⟩ := List.mem_map.1 hnode
        exact ⟨index, position, rfl, Nat.le_refl index⟩
      · obtain ⟨first, position, heq, hle⟩ := ih hrest
        exact ⟨first, position, heq, Nat.le_of_succ_le hle⟩

mutual

/-- In pre-order each position comes before all later ones. -/
theorem located_sorted : ∀ node : Node, node.located.Pairwise fun a b => a.1 < b.1
  | ⟨_, _, _, _, _, _, children⟩ => by
    refine List.pairwise_cons.2 ⟨fun entry hentry => ?_, located_from_sorted 0 children⟩
    obtain ⟨first, position, heq, _⟩ := exists_of_mem_located_from hentry
    rw [heq]
    exact List.nil_lt_cons first position

theorem located_from_sorted (index : Nat) : ∀ nodes : List Node,
    (locatedFrom index nodes).Pairwise fun a b => a.1 < b.1
  | [] => .nil
  | node :: rest => by
    rw [locatedFrom]
    refine List.pairwise_append.2
      ⟨?_, located_from_sorted (index + 1) rest, fun entry hentry later hlater => ?_⟩
    · refine List.pairwise_map.2 ((located_sorted node).imp fun {a b} hlt => ?_)
      exact List.cons_lt_cons_iff.2 (.inr ⟨rfl, hlt⟩)
    · obtain ⟨⟨position, inner⟩, _, rfl⟩ := List.mem_map.1 hentry
      obtain ⟨first, behind, heq, hle⟩ := exists_of_mem_located_from hlater
      rw [heq]
      exact List.cons_lt_cons_iff.2 (.inl hle)

end

mutual

/-- A node has a position if it is the node there. -/
theorem mem_located : ∀ {node : Node} {position : List Nat} {inner : Node},
    (position, inner) ∈ node.located ↔ node.at? position = some inner
  | ⟨_, _, _, _, _, _, children⟩, [], inner => by
    have hnone : ([], inner) ∉ locatedFrom 0 children := by
      intro hmem
      obtain ⟨_, _, heq, _⟩ := exists_of_mem_located_from hmem
      cases heq
    simp only [located, at?, List.mem_cons, hnone, or_false, Prod.mk.injEq, true_and,
      Option.some.injEq]
    exact eq_comm
  | ⟨_, _, _, _, _, _, children⟩, index :: position, inner => by
    have hchildren := mem_located_from children 0 index position inner
    rw [Nat.zero_add] at hchildren
    simp [located, at?, hchildren]

theorem mem_located_from : ∀ (nodes : List Node) (index first : Nat) (position : List Nat)
    (inner : Node), ((index + first) :: position, inner) ∈ locatedFrom index nodes ↔
      (nodes[first]?.bind fun child => child.at? position) = some inner
  | [], index, first, position, inner => by simp [locatedFrom]
  | node :: rest, index, 0, position, inner => by
    have hrest : (index :: position, inner) ∉ locatedFrom (index + 1) rest := by
      intro hmem
      obtain ⟨_, _, heq, hle⟩ := exists_of_mem_located_from hmem
      cases heq
      omega
    simp [locatedFrom, hrest, mem_located]
  | node :: rest, index, first + 1, position, inner => by
    have hrest := mem_located_from rest (index + 1) first position inner
    rw [Nat.add_right_comm] at hrest
    have hlater : index ≠ index + first + 1 := by omega
    simp [locatedFrom, ← Nat.add_assoc, hrest, hlater]

end

/-! ## Nodes in order -/

/-- Whether some nodes are those at or below `root` that satisfy a condition, each once, in the order of
their positions. -/
def ListsInOrder (root : Node) (p : Node → Prop) (nodes : List Node) : Prop :=
  ∃ positions : List (List Nat), positions.Pairwise (· < ·) ∧
    (∀ position, position ∈ positions ↔ ∃ node, root.at? position = some node ∧ p node) ∧
    nodes.map some = positions.map root.at?

/-- The nodes of a class in pre-order are listed in the order of their positions. -/
theorem lists_filter (root : Node) (p : Node → Bool) :
    root.ListsInOrder (p · = true) (root.preorder.filter p) := by
  have hplaced : ∀ entry ∈ root.located.filter (p ·.2), some entry.2 = root.at? entry.1 :=
    fun entry hentry => (mem_located.1 (List.mem_filter.1 hentry).1).symm
  refine ⟨(root.located.filter (p ·.2)).map (·.1), ?_, fun position => ?_, ?_⟩
  · exact List.pairwise_map.2 ((located_sorted root).filter _)
  · simp only [List.mem_map, List.mem_filter, Prod.exists, mem_located, exists_and_right,
      exists_eq_right]
  · rw [← map_snd_located, List.filter_map, List.map_map, List.map_map]
    exact List.map_congr_left hplaced

end Node

end ProgramInterface
