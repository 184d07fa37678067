import Mathlib.Data.List.Chain
import ProgramInterface.Grammar.SourceFile
import ProgramInterface.Proofs.Syntax.Positions

/-!
# The order of matches

A walk with a stack of subtrees lists every node of a tree once in recursive pre-order, and so the
matches of a query are the nodes of its kinds, each once, in that order (`walk_in_order`). Where
children lie inside their parent and follow one another, pre-order is also the order in which nodes
begin in the source (`IsNested.starts_sorted`).
-/

namespace ProgramInterface

namespace Node

/-- Whether the children of a node lie inside it and follow one another. -/
structure HoldsChildren (node : Node) : Prop where
  inside : ∀ child ∈ node.children,
    node.start ≤ child.start ∧ child.start ≤ child.stop ∧ child.stop ≤ node.stop
  follow : node.children.IsChain fun child next => child.stop ≤ next.start

instance (node : Node) : Decidable node.HoldsChildren :=
  decidable_of_iff (_ ∧ _) ⟨fun h => ⟨h.1, h.2⟩, fun h => ⟨h.inside, h.follow⟩⟩

/-- Whether children lie inside their parent and follow one another everywhere in a tree. -/
def IsNested (root : Node) : Prop :=
  ∀ node ∈ root.preorder, node.HoldsChildren

instance (root : Node) : Decidable root.IsNested :=
  inferInstanceAs (Decidable (∀ node ∈ root.preorder, node.HoldsChildren))

variable {root : Node}

theorem IsNested.child {child : Node} (h : root.IsNested) (hchild : child ∈ root.children) :
    child.IsNested :=
  fun node hnode => h node (mem_preorder.2 (.inr ⟨child, hchild, hnode⟩))

/-- What lies in a tree begins no earlier than its root, and no later than the root ends. -/
theorem IsNested.start_between (h : root.IsNested) (hroot : root.start ≤ root.stop) {inner : Node}
    (hinner : inner ∈ root.preorder) : root.start ≤ inner.start ∧ inner.start ≤ root.stop := by
  induction root using size_induction with
  | step root ih =>
      rcases mem_preorder.1 hinner with rfl | ⟨child, hchild, hbelow⟩
      · exact ⟨Nat.le_refl _, hroot⟩
      · obtain ⟨hstart, hrange, hstop⟩ := (h root (mem_preorder_self root)).inside child hchild
        obtain ⟨hlow, hhigh⟩ := ih child (size_lt_of_mem_children hchild) (h.child hchild) hrange
          hbelow
        exact ⟨Nat.le_trans hstart hlow, Nat.le_trans hhigh hstop⟩

/-- Siblings that follow one another begin behind every earlier one. -/
theorem pairwise_of_follow {nodes : List Node} (hrange : ∀ node ∈ nodes, node.start ≤ node.stop)
    (hfollow : nodes.IsChain fun node next => node.stop ≤ next.start) :
    nodes.Pairwise fun node later => node.stop ≤ later.start := by
  induction nodes with
  | nil => exact .nil
  | cons node rest ih =>
      obtain ⟨_, hrest⟩ := List.forall_mem_cons.1 hrange
      have hlater := ih hrest hfollow.of_cons
      refine List.pairwise_cons.2 ⟨fun later hmem => ?_, hlater⟩
      cases rest with
      | nil => cases hmem
      | cons next rest =>
          have hnext : node.stop ≤ next.start := (List.isChain_cons_cons.1 hfollow).1
          rcases List.mem_cons.1 hmem with rfl | hbehind
          · exact hnext
          · have hstop := (List.pairwise_cons.1 hlater).1 later hbehind
            exact Nat.le_trans hnext (Nat.le_trans (hrest next (List.mem_cons_self ..)) hstop)

/-- Siblings that follow one another are listed in the order in which nodes begin if the tree of each
of them is. -/
theorem preorders_sorted {nodes : List Node} (hnested : ∀ node ∈ nodes, node.IsNested)
    (hrange : ∀ node ∈ nodes, node.start ≤ node.stop)
    (hfollow : nodes.Pairwise fun node later => node.stop ≤ later.start)
    (hsorted : ∀ node ∈ nodes, node.preorder.Pairwise fun a b => a.start ≤ b.start) :
    (preorders nodes).Pairwise fun a b => a.start ≤ b.start := by
  induction nodes with
  | nil => exact .nil
  | cons node rest ih =>
      rw [List.forall_mem_cons] at hnested hrange hsorted
      obtain ⟨hlater, hrest⟩ := List.pairwise_cons.1 hfollow
      refine List.pairwise_append.2 ⟨hsorted.1, ih hnested.2 hrange.2 hrest hsorted.2, ?_⟩
      intro first hfirst second hsecond
      obtain ⟨later, hmem, hbelow⟩ := mem_preorders.1 hsecond
      calc first.start
          ≤ node.stop := (hnested.1.start_between hrange.1 hfirst).2
        _ ≤ later.start := hlater later hmem
        _ ≤ second.start :=
          ((hnested.2 later hmem).start_between (hrange.2 later hmem) hbelow).1

/-- In pre-order no node begins before an earlier one. -/
theorem IsNested.starts_sorted (h : root.IsNested) :
    root.preorder.Pairwise fun a b => a.start ≤ b.start := by
  induction root using size_induction with
  | step root ih =>
      have hroot := h root (mem_preorder_self root)
      have hrange : ∀ child ∈ root.children, child.start ≤ child.stop := fun child hchild =>
        (hroot.inside child hchild).2.1
      rw [preorder_eq]
      refine List.pairwise_cons.2 ⟨fun inner hinner => ?_, ?_⟩
      · obtain ⟨child, hchild, hbelow⟩ := mem_preorders.1 hinner
        exact Nat.le_trans (hroot.inside child hchild).1
          ((h.child hchild).start_between (hrange child hchild) hbelow).1
      · exact preorders_sorted (fun child hchild => h.child hchild) hrange
          (pairwise_of_follow hrange hroot.follow) fun child hchild =>
            ih child (size_lt_of_mem_children hchild) (h.child hchild)

/-! ## Matches -/

/-- The matches of a query are the nodes of its kinds, each once, in the order of their positions. -/
theorem matching_lists (root : Node) (query : QueryKind) :
    root.ListsInOrder (·.kind ∈ query.nodeKinds) (root.matching query) := by
  have hlists := lists_filter root query.isMatch
  rw [← matching_eq_filter_preorder] at hlists
  simpa only [QueryKind.isMatch, List.contains_iff_mem] using hlists

/-- Of the matches of one query those of some kinds are the matches of a query for these kinds. -/
theorem matching_of_kinds (query : QueryKind) {narrow : QueryKind} (p : Kind → Bool)
    (h : ∀ kind, kind ∈ narrow.nodeKinds ↔ kind ∈ query.nodeKinds ∧ p kind = true) (root : Node) :
    root.matching narrow = (root.matching query).filter (p ·.kind) := by
  rw [matching, matching, List.filter_filter]
  refine List.filter_congr fun node _ => ?_
  rw [Bool.eq_iff_iff, Bool.and_eq_true, QueryKind.isMatch, QueryKind.isMatch,
    List.contains_iff_mem, List.contains_iff_mem, h, and_comm]

end Node

/-- A walk lists the nodes of a tree in recursive pre-order, each once. The matches of a query, at their
places or not, are the nodes of its kinds, each once, in that order; those of structs and of enums are
the matches of their kind among those of both; and where children lie inside their parent and follow one
another, no match begins before an earlier one. -/
theorem walk_in_order (root : Node) :
    (root.walk = root.preorder ∧ root.ListsInOrder (fun _ => True) root.walk) ∧
    (∀ query, root.ListsInOrder (·.kind ∈ query.nodeKinds) (root.matching query) ∧
      ((Placed.ofRoot root).matching query).map (·.node) = root.matching query) ∧
    root.matching .struct = (root.matching .structOrEnum).filter (·.kind = .structItem) ∧
    root.matching .enum = (root.matching .structOrEnum).filter (·.kind = .enumItem) ∧
    (root.IsNested → ∀ query,
      ((root.matching query).map (·.start)).Pairwise (· ≤ ·)) := by
  have hwalk : root.ListsInOrder (fun _ => True) root.walk := by
    have hlists := root.lists_filter fun _ => true
    rw [List.filter_true, ← root.walk_eq_preorder] at hlists
    simpa only using hlists
  refine ⟨⟨root.walk_eq_preorder, hwalk⟩, fun query => ⟨root.matching_lists query, ?_⟩, ?_, ?_, ?_⟩
  · exact Placed.map_node_matching root query
  · refine Node.matching_of_kinds .structOrEnum (· = .structItem) (fun kind => ?_) root
    simp +contextual [QueryKind.nodeKinds, iff_def]
  · refine Node.matching_of_kinds .structOrEnum (· = .enumItem) (fun kind => ?_) root
    simp +contextual [QueryKind.nodeKinds, iff_def]
  · intro hnested query
    rw [Node.matching_eq_filter_preorder]
    exact List.pairwise_map.2 (hnested.starts_sorted.filter _)

/-- A struct and an enum in the body of a function between two other items. -/
theorem walk_in_order_nested :
    let root := Grammar.sourceFile "enum E\x7bA\x7dfn f()\x7bstruct S(u8);enum G\x7b\x7d\x7dstruct T;"
    root.IsNested ∧ (root.matching .structOrEnum).map (·.start) = [0, 16, 29, 38] ∧
      ((root.matching .structOrEnum).map (·.start)).Pairwise (· ≤ ·) := by
  intro root
  have hnested : root.IsNested := by decide +kernel
  exact ⟨hnested, by decide +kernel, (walk_in_order root).2.2.2.2 hnested .structOrEnum⟩

end ProgramInterface
