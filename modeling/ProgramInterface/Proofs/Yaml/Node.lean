import ProgramInterface.Proofs.Yaml.Block
import ProgramInterface.Proofs.Yaml.Resolve
import ProgramInterface.Yaml.Node

/-!
# Reading nodes

The tokens of members that can be written are read as nodes that say what the members are
(`document_reads`). Every node that is read gets a greater number than those before it, and the nodes
in a collection get greater numbers than the collection.
-/

namespace ProgramInterface

namespace Yaml

/-- The node that a value begins as; a mapping begins empty. -/
def Output.node : Output → Node
  | .null => .scalar .null "null"
  | .bool value => .scalar .bool (if value then "true" else "false")
  | .int value => .scalar .int (Text.ofInt value)
  | .text value => .scalar .str value
  | .mapping _ => .mapping .map []

mutual

/-- Whether the node with a number says what a value is. -/
inductive Shows (nodes : Array Node) : Nat → Output → Prop
  | scalar {n : Nat} {v : Output} (hv : v.IsScalar) (hnode : nodes[n]? = some v.node) :
      Shows nodes n v
  | mapping {n : Nat} {pairs : List (Nat × Nat)} {members : List (Text × Output)}
      (hnode : nodes[n]? = some (.mapping .map pairs)) (h : ShowsMembers nodes n pairs members) :
      Shows nodes n (.mapping members)

/-- Whether the nodes of keys and values say what some members with different names are; all have
greater numbers than `n`. -/
inductive ShowsMembers (nodes : Array Node) :
    Nat → List (Nat × Nat) → List (Text × Output) → Prop
  | nil {n : Nat} : ShowsMembers nodes n [] []
  | cons {n key value : Nat} {name : Text} {v : Output} {pairs : List (Nat × Nat)}
      {members : List (Text × Output)} (hkeyNumber : n < key) (hvalueNumber : n < value)
      (hkey : nodes[key]? = some (.scalar .str name)) (hvalue : Shows nodes value v)
      (hnew : ∀ member ∈ members, member.1 ≠ name) (h : ShowsMembers nodes n pairs members) :
      ShowsMembers nodes n ((key, value) :: pairs) ((name, v) :: members)

end

/-- Whether the nodes from a number on are nodes of another document too. -/
def KeepFrom (least : Nat) (nodes others : Array Node) : Prop :=
  ∀ n node, least ≤ n → nodes[n]? = some node → others[n]? = some node

variable {nodes others : Array Node} {least n : Nat}

mutual

/-- What a node says depends on nodes with numbers that are not less than its own. -/
theorem Shows.keep {n : Nat} {v : Output} (hkeep : KeepFrom least nodes others) (hn : least ≤ n)
    (h : Shows nodes n v) : Shows others n v := by
  cases h with
  | scalar hv hnode => exact .scalar hv (hkeep n _ hn hnode)
  | mapping hnode hmembers =>
      exact .mapping (hkeep n _ hn hnode) (ShowsMembers.keep hkeep (Nat.le_succ_of_le hn) hmembers)

theorem ShowsMembers.keep {n : Nat} {pairs : List (Nat × Nat)} {members : List (Text × Output)}
    (hkeep : KeepFrom least nodes others) (hn : least ≤ n + 1) (h : ShowsMembers nodes n pairs members) :
    ShowsMembers others n pairs members := by
  cases h with
  | nil => exact .nil
  | cons hkeyNumber hvalueNumber hkey hvalue hnew hrest =>
      exact .cons hkeyNumber hvalueNumber (hkeep _ _ (Nat.le_trans hn hkeyNumber) hkey)
        (Shows.keep hkeep (Nat.le_trans hn hvalueNumber) hvalue) hnew
        (ShowsMembers.keep hkeep hn hrest)

end

theorem Shows.lt_size {v : Output} (h : Shows nodes n v) : n < nodes.size := by
  cases h with
  | scalar _ hnode => exact (Array.getElem?_eq_some_iff.1 hnode).1
  | mapping hnode _ => exact (Array.getElem?_eq_some_iff.1 hnode).1

theorem KeepFrom.trans {more : Array Node} (h : KeepFrom 0 nodes others)
    (hmore : KeepFrom 0 others more) : KeepFrom 0 nodes more :=
  fun n node hn hnode => hmore n node hn (h n node hn hnode)

theorem keep_push (nodes : Array Node) (node : Node) : KeepFrom 0 nodes (nodes.push node) := by
  intro n found _ hfound
  have hsize : n < nodes.size := (Array.getElem?_eq_some_iff.1 hfound).1
  rw [Array.getElem?_push, if_neg (Nat.ne_of_lt hsize), hfound]

/-- Nodes behind one are kept when that one is replaced. -/
theorem keep_set (nodes : Array Node) (n : Nat) (node : Node) :
    KeepFrom (n + 1) nodes (nodes.setIfInBounds n node) := by
  intro m found hm hfound
  rw [Array.getElem?_setIfInBounds_ne (Nat.ne_of_lt hm), hfound]

namespace NodeReader

/-- Reading takes some tokens from what is left and gives a number of a new node that says what a value
is. -/
def Reads (reader : NodeReader Nat) (tokens : List Token) (v : Output) : Prop :=
  ∀ s : Reading, ∃ n nodes, reader.run { s with tokens := tokens ++ s.tokens } =
    .ok (n, { s with nodes }) ∧ s.nodes.size ≤ n ∧ KeepFrom 0 s.nodes nodes ∧ Shows nodes n v

variable {size depth : Nat} {position : Position} {tokens : List Token}

/-- A scalar without properties. -/
theorem run_scalar (size depth : Nat) (position : Position) (content : Text) (isPlain : Bool)
    (s : Reading) :
    (node size (depth + 1) position).run { s with tokens := .scalar content isPlain :: s.tokens } =
      .ok (s.nodes.size, { s with nodes := s.nodes.push (scalarNode none none content isPlain) }) :=
  rfl

/-- A scalar is read as its node. -/
theorem reads_scalar {v : Output} (h : v.IsScalar) (size depth : Nat) (position : Position) :
    Reads (node size (depth + 1) position) v.tokens v := by
  obtain ⟨content, isPlain, htokens, hnode⟩ : ∃ content isPlain,
      v.tokens = [.scalar content isPlain] ∧ scalarNode none none content isPlain = v.node := by
    cases h with
    | null => exact ⟨_, _, rfl, congrArg (Node.scalar · _) implicit_tag_null⟩
    | bool value => exact ⟨_, _, rfl, congrArg (Node.scalar · _) (implicit_tag_bool value)⟩
    | int n => exact ⟨_, _, rfl, congrArg (Node.scalar · _) (implicit_tag_of_nat n)⟩
    | text value =>
        refine ⟨_, _, rfl, ?_⟩
        by_cases hplain : Output.style value = .plain
        · simp [scalarNode, hplain, (Output.style_eq_plain_iff.1 hplain).1, Output.node]
        · simp [scalarNode, hplain, Output.node]
  intro s
  rw [htokens]
  refine ⟨_, _, run_scalar size depth position content isPlain s, Nat.le_refl _, keep_push _ _,
    .scalar h ?_⟩
  rw [Array.getElem?_push_size, hnode]

/-- Reading takes some tokens from what is left and gives the numbers of new nodes, behind `done`, that
say what some members are. -/
def ReadsMembers (reader : NodeReader (List (Nat × Nat))) (tokens : List Token)
    (done : List (Nat × Nat)) (members : List (Text × Output)) : Prop :=
  ∀ (s : Reading) (n : Nat), n < s.nodes.size →
    ∃ pairs nodes, reader.run { s with tokens := tokens ++ s.tokens } =
      .ok (done.reverse ++ pairs, { s with nodes }) ∧ KeepFrom 0 s.nodes nodes ∧
      ShowsMembers nodes n pairs members

/-- A block mapping without properties. -/
theorem reads_mapping (hposition : position ≠ .flow) {members : List (Text × Output)}
    (h : ReadsMembers (blockMembers (node size depth) [] size) tokens [] members) :
    Reads (node size (depth + 1) position) (.blockMappingStart :: tokens) (.mapping members) := by
  intro s
  obtain ⟨pairs, nodes, hrun, hkeep, hmembers⟩ :=
    h { s with nodes := s.nodes.push (.mapping .map []) } s.nodes.size (by simp)
  refine ⟨s.nodes.size, nodes.setIfInBounds s.nodes.size (.mapping .map pairs), ?_, Nat.le_refl _,
    fun m found hm hfound => ?_, .mapping ?_ (hmembers.keep (keep_set _ _ _) (Nat.le_refl _))⟩
  · have hstart : (node size (depth + 1) position).run
        { s with tokens := .blockMappingStart :: tokens ++ s.tokens } =
        ((blockMembers (node size depth) [] size >>= fun pairs => return .mapping .map pairs) >>=
          fun inside => do
            modify fun t : Reading => { t with nodes := t.nodes.setIfInBounds s.nodes.size inside }
            return s.nodes.size).run
          { s with tokens := tokens ++ s.tokens, nodes := s.nodes.push (.mapping .map []) } := by
      cases position
      · rfl
      · rfl
      · contradiction
    rw [hstart, StateT.run_bind, StateT.run_bind, hrun]
    rfl
  · have hne : s.nodes.size ≠ m := fun heq => by
      have hsize := (Array.getElem?_eq_some_iff.1 hfound).1
      omega
    rw [Array.getElem?_setIfInBounds_ne hne]
    exact hkeep m found hm (keep_push s.nodes _ m found hm hfound)
  · have hplace := hkeep s.nodes.size _ (Nat.zero_le _) Array.getElem?_push_size
    rw [Array.getElem?_setIfInBounds_self_of_lt (Array.getElem?_eq_some_iff.1 hplace).1]

/-- What does not begin with the end of a member is read as a node. -/
theorem reads_or_empty {sub : SubReader} {v : Output} {token : Token}
    (hends : endsMember token = false) (h : Reads (sub position) (token :: tokens) v) :
    Reads (nodeOrEmpty sub endsMember position) (token :: tokens) v := by
  intro s
  have hnext : (nodeOrEmpty sub endsMember position).run
      { s with tokens := token :: tokens ++ s.tokens } =
      (if endsMember token then begin none empty else sub position).run
        { s with tokens := token :: tokens ++ s.tokens } := rfl
  rw [hnext, hends, if_neg Bool.false_ne_true]
  exact h s

/-- The node of a value does not end a member. -/
theorem tokens_head (v : Output) : ∃ token others, v.tokens = token :: others ∧
    endsMember token = false := by
  cases v <;> exact ⟨_, _, rfl, rfl⟩

/-- One member of a block mapping, and those behind it. -/
theorem reads_member {name : List Char} {v : Output} {fuel : Nat}
    {members : List (Text × Output)} (hname : IsMemberName name members)
    (hv : Reads (node size (depth + 1) .blockOrSequence) v.tokens v)
    (h : ∀ done, ReadsMembers (blockMembers (node size (depth + 1)) done fuel) tokens done members)
    (done : List (Nat × Nat)) :
    ReadsMembers (blockMembers (node size (depth + 1)) done (fuel + 1))
      (.key :: .scalar (Text.ofChars name) true :: .value :: (v.tokens ++ tokens)) done
      ((Text.ofChars name, v) :: members) := by
  intro s n hn
  obtain ⟨token, others, htokens, hends⟩ := tokens_head v
  have hvalue : Reads (nodeOrEmpty (node size (depth + 1)) endsMember .blockOrSequence) v.tokens v := by
    rw [htokens] at hv ⊢
    exact reads_or_empty hends hv
  -- The key is the next new node, and the nodes of the value follow it.
  obtain ⟨value, nodes, hvalueRun, hvalueNumber, hvalueKeep, hvalueShows⟩ :=
    hvalue { s with
      tokens := tokens ++ s.tokens
      nodes := s.nodes.push (.scalar .str (Text.ofChars name)) }
  have hkeyShows := hvalueKeep s.nodes.size _ (Nat.zero_le _) Array.getElem?_push_size
  have hsize : s.nodes.size < nodes.size := (Array.getElem?_eq_some_iff.1 hkeyShows).1
  obtain ⟨pairs, last, hrun, hkeep, hmembers⟩ :=
    h ((s.nodes.size, value) :: done) { s with nodes } n (Nat.lt_trans hn hsize)
  refine ⟨(s.nodes.size, value) :: pairs, last, ?_,
    ((keep_push _ _).trans hvalueKeep).trans hkeep, ?_⟩
  · have hkey : (blockMembers (node size (depth + 1)) done (fuel + 1)).run
        { s with
          tokens :=
            .key :: .scalar (Text.ofChars name) true :: .value :: (v.tokens ++ tokens) ++ s.tokens } =
        (nodeOrEmpty (node size (depth + 1)) endsMember .blockOrSequence >>= fun value =>
          blockMembers (node size (depth + 1)) ((s.nodes.size, value) :: done) fuel).run
          { s with
            tokens := v.tokens ++ (tokens ++ s.tokens)
            nodes := s.nodes.push
              (.scalar (implicitTag (Text.ofChars name)) (Text.ofChars name)) } := by
      rw [← List.append_assoc]
      rfl
    rw [hkey, hname.tag, StateT.run_bind, hvalueRun, ok_bind, hrun]
    simp
  · have hnumber : s.nodes.size + 1 ≤ value := by simpa using hvalueNumber
    exact .cons hn (by omega) (hkeep _ _ (Nat.zero_le _) hkeyShows)
      (hvalueShows.keep hkeep (Nat.zero_le _)) hname.new hmembers

theorem length_member_tokens (members : List (Text × Output)) :
    members.length ≤ (memberTokens members).length := by
  induction members with
  | nil => exact Nat.zero_le _
  | cons member members ih =>
      simp only [memberTokens, List.length_cons, List.length_append]
      omega

/-- The tokens of members are read as nodes that say what they are, if there is room for as many nodes
inside each other and in a row as there are tokens. -/
theorem reads_members {level : Nat} {members : List (Text × Output)} (h : Writable level members)
    (hsize : (memberTokens members).length < size) (depth fuel : Nat)
    (hdepth : (memberTokens members).length ≤ depth) (hfuel : members.length < fuel)
    (done : List (Nat × Nat)) :
    ReadsMembers (blockMembers (node size depth) done fuel) (memberTokens members ++ [.blockEnd]) done
      members := by
  induction h generalizing depth fuel done with
  | nil =>
      obtain ⟨fuel, rfl⟩ := Nat.exists_eq_add_of_lt hfuel
      intro s n _
      refine ⟨[], s.nodes, ?_, fun _ _ _ h => h, .nil⟩
      rw [List.length_nil, Nat.zero_add, List.append_nil]
      rfl
  | @scalar level name v members hname hv _ h ih =>
      simp only [memberTokens, List.length_cons, List.length_append] at hdepth hsize hfuel
      obtain ⟨fuel, rfl⟩ : ∃ n, fuel = n + 1 := ⟨fuel - 1, by omega⟩
      obtain ⟨depth, rfl⟩ : ∃ n, depth = n + 1 := ⟨depth - 1, by omega⟩
      have hrest := ih (by omega) (depth + 1) fuel (by omega) (by omega)
      have hmember := reads_member hname (reads_scalar hv size depth _) hrest done
      simpa [memberTokens] using hmember
  | @mapping level name inner members hname _ hinner h ihInner ih =>
      simp only [memberTokens, Output.tokens, List.length_cons, List.length_append] at hdepth hsize hfuel
      obtain ⟨fuel, rfl⟩ : ∃ n, fuel = n + 1 := ⟨fuel - 1, by omega⟩
      obtain ⟨depth, rfl⟩ : ∃ n, depth = n + 1 := ⟨depth - 1, by omega⟩
      have hlength := length_member_tokens inner
      have hinnerReads := ihInner (by omega) depth size (by omega) (by omega) []
      have hvalue : Reads (node size (depth + 1) .blockOrSequence) (Output.mapping inner).tokens
          (Output.mapping inner) := reads_mapping (by decide) hinnerReads
      have hrest := ih (by omega) (depth + 1) fuel (by omega) (by omega)
      have hmember := reads_member hname hvalue hrest done
      simpa [memberTokens] using hmember

/-- The tokens of a mapping are those of one document. -/
theorem document_reads {level : Nat} {members : List (Text × Output)} (h : Writable level members)
    (hsize : (Output.mapping members).tokens.length < size) :
    ∃ root nodes, (document size).run
      ⟨(Output.mapping members).tokens, none, [], defaultHandles, #[]⟩ =
        .ok (some root, ⟨[], none, [], defaultHandles, nodes⟩) ∧
      Shows nodes root (.mapping members) := by
  obtain ⟨n, rfl⟩ : ∃ n, size = n + 1 := ⟨size - 1, by omega⟩
  simp only [Output.tokens, List.length_cons, List.length_append] at hsize
  have hlength := length_member_tokens members
  have hmembers : ReadsMembers (blockMembers (node (n + 1) n) [] (n + 1))
      (memberTokens members ++ [.blockEnd]) [] members :=
    reads_members h (by omega) n (n + 1) (by omega) (by omega) []
  obtain ⟨root, nodes, hroot, _, _, hshows⟩ :=
    reads_mapping (by decide : Position.block ≠ .flow) hmembers ⟨[], none, [], defaultHandles, #[]⟩
  refine ⟨root, nodes, ?_, hshows⟩
  rw [List.append_nil] at hroot
  have hdocument : (document (n + 1)).run
      ⟨(Output.mapping members).tokens, none, [], defaultHandles, #[]⟩ =
      (node (n + 1) (n + 1) .block >>= fun root => do
        skipEnds (n + 1)
        if (← peek).isSome then
          directives 0 [] (n + 1)
          malformed
        return some root).run
        ⟨(Output.mapping members).tokens, none, [], defaultHandles, #[]⟩ := rfl
  rw [hdocument, StateT.run_bind]
  show (node (n + 1) (n + 1) .block).run
    ⟨.blockMappingStart :: (memberTokens members ++ [.blockEnd]), none, [], defaultHandles, #[]⟩ >>=
    _ = _
  rw [hroot]
  rfl

end NodeReader

/-- Nodes that say what a mapping is are read from each of its spellings. -/
theorem read_graph_spelled {members : List (Text × Output)} {w : List Char} (h : Writable 0 members)
    (hw : BlockSpelled 0 members ('\n' :: w)) :
    ∃ graph, readGraph (w ++ ['\n']) = .ok (some graph) ∧
      Shows graph.nodes graph.root (.mapping members) := by
  have hsize : (Output.mapping members).tokens.length <
      2 * (Output.mapping members).tokens.length + 8 := by omega
  obtain ⟨root, nodes, hroot, hshows⟩ := NodeReader.document_reads h hsize
  refine ⟨⟨nodes, root⟩, ?_, hshows⟩
  simp only [readGraph, read_tokens_spelled hw, hroot]
  rfl

end Yaml

end ProgramInterface
