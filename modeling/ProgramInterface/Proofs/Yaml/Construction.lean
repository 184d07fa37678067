import ProgramInterface.Proofs.Yaml.Node
import ProgramInterface.Yaml.Construction

/-!
# Making values of nodes

Nodes that say what a mapping is are made the value of the mapping (`value_of_shows`), so a mapping is
read from each of its spellings (`read_spelled`). Every collection waits behind those that it stands
in, so in each round the numbers that wait are greater than in the one before.
-/

namespace ProgramInterface

namespace Yaml

mutual

/-- What a value that is written is read as. -/
def Output.value : Output → Value
  | .mapping members => .mapping (memberValues members)
  | .null => .null
  | .bool value => .bool value
  | .int value => .int value
  | .text value => .text value

/-- What some members are read as. -/
def memberValues : List (Text × Output) → List (Value × Value)
  | [] => []
  | (name, value) :: rest => (.text name, value.value) :: memberValues rest

end

/-- A member that is new stands behind the others. -/
theorem put_member_new {α : Type} {done : List (Value × α)} {key : Value} (new : α)
    (h : ∀ m ∈ done, m.1.isSameKey key = false) : putMember done key new = done ++ [(key, new)] := by
  have hnone : done.any (fun m => m.1.isSameKey key) = false :=
    List.any_eq_false.2 fun m hm => by simp [h m hm]
  rw [putMember, hnone, if_neg Bool.false_ne_true]

theorem Output.IsScalar.value_eq {v : Output} (h : v.IsScalar) :
    ∃ tag content, v.node = .scalar tag content ∧ readScalar tag content = .ok v.value := by
  cases h with
  | null => exact ⟨_, _, rfl, rfl⟩
  | bool value => exact ⟨_, _, rfl, read_truth_bool value⟩
  | int n hfits => exact ⟨_, _, rfl, read_integer_of_nat hfits⟩
  | text value => exact ⟨_, _, rfl, rfl⟩

variable {nodes : Array Node} {n least : Nat} {pairs : List (Nat × Nat)}
  {members : List (Text × Output)}

/-- Whether the keys of members are texts. -/
def HaveNames (nodes : Array Node) (pairs : List (Nat × Nat)) : Prop :=
  ∀ pair ∈ pairs, ∃ name, nodes[pair.1]? = some (.scalar .str name)

theorem ShowsMembers.have_names (h : ShowsMembers nodes n pairs members) : HaveNames nodes pairs := by
  induction pairs generalizing members with
  | nil => exact List.forall_mem_nil _
  | cons pair pairs ih =>
      cases h with
      | cons _ _ hkey _ _ hrest => exact List.forall_mem_cons.2 ⟨⟨_, hkey⟩, ih hrest⟩

/-- What a mapping of texts is filled with, given the nodes of its members. -/
def entriesOf (nodes : Array Node) (pairs : List (Nat × Nat)) : List (Value × Nat) :=
  pairs.map fun pair =>
    match nodes[pair.1]? with
    | some (Node.scalar _ content) => (.text content, pair.2)
    | _ => (.null, pair.2)

namespace Maker

/-- Whether an object is what a node is made in the end. -/
inductive IsFinal (nodes : Array Node) (n : Nat) : Object → Prop
  | scalar {tag : Tag} {content : Text} {value : Value}
      (hnode : nodes[n]? = some (.scalar tag content)) (hread : readScalar tag content = .ok value) :
      IsFinal nodes n (.simple value)
  | mapping {pairs : List (Nat × Nat)} (hnode : nodes[n]? = some (.mapping .map pairs)) :
      IsFinal nodes n (.mapping (entriesOf nodes pairs))

theorem IsFinal.scalar_eq {v : Output} {object : Object} (h : IsFinal nodes n object)
    (hv : v.IsScalar) (hnode : nodes[n]? = some v.node) : object = .simple v.value := by
  obtain ⟨tag, content, hcontent, hread⟩ := hv.value_eq
  rw [hcontent] at hnode
  cases h with
  | scalar hother hvalue =>
      cases hnode.symm.trans hother
      cases hread.symm.trans hvalue
      rfl
  | mapping hother => cases hnode.symm.trans hother

theorem IsFinal.mapping_eq {object : Object} (h : IsFinal nodes n object)
    (hnode : nodes[n]? = some (.mapping .map pairs)) :
    object = .mapping (entriesOf nodes pairs) := by
  cases h with
  | scalar hother => cases hnode.symm.trans hother
  | mapping hother =>
      cases hnode.symm.trans hother
      rfl

/-- The object that is made of a node so far. -/
def Has (objects : Array (Option Object)) (n : Nat) (object : Object) : Prop :=
  objects[n]? = some (some object)

/-- Whether there still is an object of every node that there was one of. -/
def Extends (objects others : Array (Option Object)) : Prop :=
  ∀ n object, Has objects n object → ∃ other, Has others n other

/-- Whether there are objects of all nodes that an object is filled with. -/
def IsFull (objects : Array (Option Object)) : Object → Prop
  | .mapping members => ∀ member ∈ members, ∃ object, Has objects member.2 object
  | _ => True

/-- The state between two steps of making objects of nodes that do not change. Of the mappings that
are not filled yet, `pending` are those of this round, and those that wait for the next round have
numbers from `least` on. -/
structure Sound (nodes : Array Node) (pending : List Nat) (least : Nat) (s : Making) : Prop where
  nodes_eq : s.nodes = nodes
  size_eq : s.objects.size = nodes.size
  isOpen : ∀ n ∈ pending ++ s.waiting, (∃ members, Has s.objects n (.mapping members)) ∧
    ∃ members, Shows nodes n (.mapping members)
  isDone : ∀ n object, Has s.objects n object → n ∉ pending ++ s.waiting →
    IsFinal nodes n object ∧ IsFull s.objects object
  below : ∀ n ∈ pending, least ≤ n + 1
  waits : ∀ n ∈ s.waiting, least ≤ n

variable {s : Making}

/-! ## Nodes -/

theorem run_node {node : Node} (h : s.nodes[n]? = some node) : (Maker.node n).run s = .ok (node, s) := by
  rw [Maker.node, StateT.run_bind, StateT.run_get, pure_bind, h]
  rfl

theorem run_has_tag {node : Node} (h : s.nodes[n]? = some node) (tag : Tag) :
    (hasTag tag n).run s = .ok (decide (node.tag = tag), s) := by
  rw [hasTag, StateT.run_bind, run_node h]
  rfl

theorem run_start_scalar {v : Output} (hv : v.IsScalar) (h : s.nodes[n]? = some v.node) :
    (start n).run s = .ok (.simple v.value, s) := by
  obtain ⟨tag, content, hnode, hread⟩ := hv.value_eq
  have htext : (textOf (s.nodes.size + 1) n).run s = .ok (content, s) := by
    rw [textOf, StateT.run_bind, run_node h, hnode]
    rfl
  have hstart : (start n).run s = (textOf (s.nodes.size + 1) n >>= fun content => do
      return .simple (← readScalar tag content)).run s := by
    rw [start, StateT.run_bind, run_node h, ok_bind]
    cases hv <;> cases hnode <;> rfl
  rw [hstart, StateT.run_bind, htext, ok_bind]
  show (do return .simple (← readScalar tag content) : Maker Object).run s = _
  rw [hread]
  rfl

theorem run_start_mapping (h : s.nodes[n]? = some (.mapping .map pairs)) :
    (start n).run s = .ok (.mapping [], s) := by
  rw [start, StateT.run_bind, run_node h]
  rfl

/-! ## Mappings that merge nothing -/

theorem run_split_merge (h : HaveNames s.nodes pairs) (before : List (Nat × Nat)) :
    (splitMerge before pairs).run s = .ok (none, s) := by
  induction pairs generalizing before with
  | nil => rfl
  | cons pair pairs ih =>
      obtain ⟨⟨name, hname⟩, hrest⟩ := List.forall_mem_cons.1 h
      rw [splitMerge, StateT.run_bind, run_has_tag hname, ok_bind]
      exact ih hrest _

theorem run_settle_keys (h : HaveNames s.nodes pairs) :
    (pairs.forM fun pair => settleKey pair.1).run s = .ok ((), s) := by
  induction pairs with
  | nil => rfl
  | cons pair pairs ih =>
      obtain ⟨⟨name, hname⟩, hrest⟩ := List.forall_mem_cons.1 h
      have hkey : (settleKey pair.1).run s = .ok ((), s) := by
        rw [settleKey, StateT.run_bind, run_node hname]
        rfl
      show (settleKey pair.1 >>= fun _ => pairs.forM fun pair => settleKey pair.1).run s = _
      rw [StateT.run_bind, hkey, ok_bind, ih hrest]

/-- A mapping that merges nothing keeps its members. -/
theorem run_merge (hnode : s.nodes[n]? = some (.mapping .map pairs)) (h : HaveNames s.nodes pairs)
    (fuel : Nat) : (merge [] (fuel + 1) n).run s = .ok ((), s) := by
  have hset : s.nodes.setIfInBounds n (.mapping .map pairs) = s.nodes := by
    obtain ⟨hn, hvalue⟩ := Array.getElem?_eq_some_iff.1 hnode
    rw [← hvalue, Array.setIfInBounds_def, dif_pos hn, Array.set_getElem_self]
  have hmembers : (setMembers n ([] ++ pairs)).run s = .ok ((), s) := by
    rw [setMembers, StateT.run_bind, run_node hnode]
    show Except.ok ((), { s with nodes := s.nodes.setIfInBounds n (.mapping .map pairs) }) = _
    rw [hset]
  rw [merge, StateT.run_bind, run_node hnode, ok_bind]
  show (splitMerge [] pairs >>= _).run s = _
  rw [StateT.run_bind, run_split_merge h, ok_bind]
  show ((pairs.forM fun pair => settleKey pair.1) >>= fun _ => setMembers n ([] ++ pairs)).run s = _
  rw [StateT.run_bind, run_settle_keys h, ok_bind, hmembers]

/-! ## Objects -/

variable {objects others : Array (Option Object)} {object : Object} {pending : List Nat}

theorem Extends.refl (objects : Array (Option Object)) : Extends objects objects :=
  fun _ object h => ⟨object, h⟩

theorem Extends.trans {more : Array (Option Object)} (h : Extends objects others)
    (hmore : Extends others more) : Extends objects more := by
  intro n object hobject
  obtain ⟨other, hother⟩ := h n object hobject
  exact hmore n other hother

theorem IsFull.extend (hextends : Extends objects others) (h : IsFull objects object) :
    IsFull others object := by
  cases object with
  | mapping members =>
      intro member hmember
      obtain ⟨found, hfound⟩ := h member hmember
      exact hextends _ found hfound
  | _ => trivial

theorem has_set_self (hn : n < objects.size) (object : Object) :
    Has (objects.setIfInBounds n (some object)) n object :=
  Array.getElem?_setIfInBounds_self_of_lt hn

theorem has_set_ne {m : Nat} (hm : n ≠ m) {new : Object} :
    Has (objects.setIfInBounds n (some new)) m object ↔ Has objects m object := by
  rw [Has, Has, Array.getElem?_setIfInBounds_ne hm]

theorem has_unique {other : Object} (h : Has objects n object) (hother : Has objects n other) :
    object = other :=
  Option.some.inj (Option.some.inj (h.symm.trans hother))

theorem extends_set (hn : n < objects.size) (object : Object) :
    Extends objects (objects.setIfInBounds n (some object)) := by
  intro m found hfound
  by_cases hm : n = m
  · subst hm
    exact ⟨object, has_set_self hn object⟩
  · exact ⟨found, (has_set_ne hm).2 hfound⟩

/-- Another object is made of one node, and no other node begins or ceases to be open. -/
theorem Sound.set (hs : Sound nodes pending least s) (hn : n < nodes.size) {rest waiting : List Nat}
    (hsame : ∀ m, m ≠ n → (m ∈ rest ++ waiting ↔ m ∈ pending ++ s.waiting))
    (hopen : n ∈ rest ++ waiting → (∃ members, object = .mapping members) ∧
      ∃ members, Shows nodes n (.mapping members))
    (hdone : n ∉ rest ++ waiting → IsFinal nodes n object ∧ IsFull s.objects object)
    (hbelow : ∀ m ∈ rest, least ≤ m + 1) (hwaits : ∀ m ∈ waiting, least ≤ m) :
    Sound nodes rest least
      { s with objects := s.objects.setIfInBounds n (some object), waiting } where
  nodes_eq := hs.nodes_eq
  size_eq := by rw [Array.size_setIfInBounds, hs.size_eq]
  isOpen m hm := by
    by_cases hmn : m = n
    · subst hmn
      obtain ⟨⟨members, rfl⟩, hshows⟩ := hopen hm
      exact ⟨⟨members, has_set_self (hs.size_eq ▸ hn) _⟩, hshows⟩
    · obtain ⟨⟨members, hhas⟩, hshows⟩ := hs.isOpen m ((hsame m hmn).1 hm)
      exact ⟨⟨members, (has_set_ne (Ne.symm hmn)).2 hhas⟩, hshows⟩
  isDone m found hfound hm := by
    have hextends := extends_set (hs.size_eq ▸ hn : n < s.objects.size) object
    by_cases hmn : m = n
    · subst hmn
      obtain rfl := has_unique (has_set_self (hs.size_eq ▸ hn) object) hfound
      obtain ⟨hfinal, hfull⟩ := hdone hm
      exact ⟨hfinal, hfull.extend hextends⟩
    · obtain ⟨hfinal, hfull⟩ := hs.isDone m found ((has_set_ne (Ne.symm hmn)).1 hfound)
        fun hmem => hm ((hsame m hmn).2 hmem)
      exact ⟨hfinal, hfull.extend hextends⟩
  below := hbelow
  waits := hwaits

/-- A node that there is an object of is not made again. -/
theorem run_make_made (h : Has s.objects n object) : (make n).run s = .ok (object, s) := by
  rw [make, StateT.run_bind, StateT.run_get, pure_bind]
  simp only [show (s.objects[n]?).join = some object by rw [h]; rfl]
  rfl

/-- What there is of a scalar is its value. -/
theorem Sound.scalar_eq {v : Output} (hs : Sound nodes pending least s) (hv : v.IsScalar)
    (hnode : nodes[n]? = some v.node) (h : Has s.objects n object) : object = .simple v.value := by
  have hclosed : n ∉ pending ++ s.waiting := fun hmem => by
    obtain ⟨-, members, hmapping⟩ := hs.isOpen n hmem
    cases hmapping with
    | scalar hno => cases hno
    | mapping hother =>
        obtain ⟨tag, content, hcontent, -⟩ := hv.value_eq
        rw [hcontent, hother] at hnode
        cases hnode
  exact (hs.isDone n object h hclosed).1.scalar_eq hv hnode

/-- The numbers that wait once an object is made of a node. -/
def waitingWith (n : Nat) (waiting : List Nat) : Object → List Nat
  | .simple _ => waiting
  | _ => n :: waiting

theorem run_make_new (hnone : ∀ object, ¬ Has s.objects n object) {t : Making}
    (h : (start n).run s = .ok (object, t)) :
    (make n).run s = .ok (object, { t with
      objects := t.objects.setIfInBounds n (some object)
      waiting := waitingWith n t.waiting object }) := by
  have hjoin : (s.objects[n]?).join = none := by
    cases hobject : (s.objects[n]?).join with
    | none => rfl
    | some object => exact absurd (Option.join_eq_some_iff.1 hobject) (hnone object)
  rw [make, StateT.run_bind, StateT.run_get, pure_bind]
  simp only [hjoin]
  rw [StateT.run_bind, h]
  cases object <;> rfl

/-- An object is made of a node, if there is none yet. -/
theorem run_make {v : Output} (hs : Sound nodes pending least s) (hv : Shows nodes n v)
    (hn : least ≤ n) : ∃ object t, (make n).run s = .ok (object, t) ∧ Sound nodes pending least t ∧
      Extends s.objects t.objects ∧ Has t.objects n object ∧
      (v.IsScalar → object = .simple v.value) := by
  have hsize := hv.lt_size
  have hbound : n < s.objects.size := hs.size_eq ▸ hsize
  by_cases hhas : ∃ object, Has s.objects n object
  · obtain ⟨object, hobject⟩ := hhas
    refine ⟨object, s, run_make_made hobject, hs, .refl _, hobject, fun hscalar => ?_⟩
    cases hv with
    | scalar _ hnode => exact hs.scalar_eq hscalar hnode hobject
    | mapping => cases hscalar
  · have hnone := not_exists.1 hhas
    -- What waits to be filled has an object, so a node without one does not wait.
    have hnew : n ∉ pending ++ s.waiting := fun hmem => by
      obtain ⟨⟨members, hmapping⟩, -⟩ := hs.isOpen n hmem
      exact hnone _ hmapping
    cases hv with
    | scalar hscalar hnode =>
        have hrun := run_make_new hnone (run_start_scalar hscalar (hs.nodes_eq ▸ hnode))
        obtain ⟨tag, content, hcontent, hread⟩ := hscalar.value_eq
        refine ⟨_, _, hrun, hs.set hsize (fun _ _ => Iff.rfl) (fun hmem => absurd hmem hnew)
          (fun _ => ⟨.scalar (hcontent ▸ hnode) hread, trivial⟩) hs.below hs.waits,
          extends_set hbound _, has_set_self hbound _, fun _ => rfl⟩
    | @mapping _ pairs members hnode hmembers =>
        have hrun := run_make_new hnone (run_start_mapping (hs.nodes_eq ▸ hnode))
        refine ⟨_, _, hrun, hs.set hsize (fun m hm => ?_)
          (fun _ => ⟨⟨[], rfl⟩, members, .mapping hnode hmembers⟩) (fun hmem => ?_) hs.below ?_,
          extends_set hbound _, has_set_self hbound _, fun hscalar => by cases hscalar⟩
        · simp [waitingWith, hm]
        · simp [waitingWith] at hmem
        · exact List.forall_mem_cons.2 ⟨hn, hs.waits⟩

/-! ## Members -/

/-- Whether no member has the key of one that is read in front of it. -/
def AreNew (members : List (Text × Output)) (done : List (Value × Nat)) : Prop :=
  ∀ member ∈ members, ∀ m ∈ done, m.1.isSameKey (.text member.1) = false

theorem AreNew.append {name : Text} {done : List (Value × Nat)} (h : AreNew members done)
    (hname : ∀ member ∈ members, member.1 ≠ name) (new : Nat) :
    AreNew members (done ++ [(.text name, new)]) := by
  intro member hmember m hm
  rcases List.mem_append.1 hm with hm | hm
  · exact h member hmember m hm
  · rw [List.mem_singleton.1 hm]
    exact beq_false_of_ne (hname member hmember).symm

/-- Objects are made of the keys and values of some members. -/
theorem run_make_members (h : ShowsMembers nodes n pairs members) (hn : least ≤ n + 1)
    (hs : Sound nodes pending least s) (done : List (Value × Nat)) (hnew : AreNew members done) :
    ∃ t, (pairs.foldlM makeMember done).run s = .ok (done ++ entriesOf nodes pairs, t) ∧
      Sound nodes pending least t ∧ Extends s.objects t.objects ∧
      IsFull t.objects (.mapping (entriesOf nodes pairs)) := by
  induction pairs generalizing members s done with
  | nil =>
      refine ⟨s, ?_, hs, .refl _, List.forall_mem_nil _⟩
      rw [entriesOf, List.map_nil, List.append_nil]
      rfl
  | cons pair pairs ih =>
      cases h with
      | @cons _ key value name v _ members hkeyNumber hvalueNumber hkey hvalue hnames hmembers =>
          obtain ⟨hfirst, hrest⟩ := List.forall_mem_cons.1 hnew
          obtain ⟨_, t, hkeyRun, ht, hkeyExtends, -, hkeyEq⟩ :=
            run_make hs (.scalar (.text name) hkey) (Nat.le_trans hn hkeyNumber)
          obtain rfl := hkeyEq (.text name)
          obtain ⟨object, u, hvalueRun, hu, hvalueExtends, hobject, -⟩ :=
            run_make ht hvalue (Nat.le_trans hn hvalueNumber)
          obtain ⟨last, hrun, hlast, hextends, hfull⟩ :=
            ih hmembers hu _ (AreNew.append hrest hnames value)
          have hentries : entriesOf nodes ((key, value) :: pairs) =
              (.text name, value) :: entriesOf nodes pairs := by
            simp [entriesOf, hkey]
          have hmember : (makeMember done (key, value)).run s =
              .ok (done ++ [(.text name, value)], u) := by
            rw [makeMember, StateT.run_bind, hkeyRun, ok_bind]
            show (make value >>= fun _ => return putMember done (.text name) value).run t = _
            rw [StateT.run_bind, hvalueRun, put_member_new value hfirst]
            rfl
          -- The objects that the members are filled with are still there when the others are made.
          refine ⟨last, ?_, hlast, (hkeyExtends.trans hvalueExtends).trans hextends, ?_⟩
          · rw [List.foldlM_cons, StateT.run_bind, hmember, ok_bind, hrun, hentries,
              List.append_assoc]
            rfl
          · rw [hentries]
            exact List.forall_mem_cons.2 ⟨hextends _ _ hobject, hfull⟩

theorem run_make_members_of {t : Making} {entries : List (Value × Nat)}
    (hnode : s.nodes[n]? = some (.mapping .map pairs)) (h : HaveNames s.nodes pairs)
    (hrun : (pairs.foldlM makeMember []).run s = .ok (entries, t)) :
    (makeMembers n).run s = .ok (entries, t) := by
  have hmembers : (membersOf n).run s = .ok (pairs, s) := by
    rw [membersOf, StateT.run_bind, run_node hnode]
    rfl
  rw [makeMembers, StateT.run_bind, StateT.run_get, pure_bind, StateT.run_bind, run_merge hnode h,
    ok_bind, StateT.run_bind, hmembers, ok_bind, hrun]

/-- A mapping that is still to be filled is filled. -/
theorem run_fill (hs : Sound nodes (n :: pending) least s) :
    ∃ t, (fill n).run s = .ok ((), t) ∧ Sound nodes pending least t ∧ Extends s.objects t.objects := by
  obtain ⟨⟨found, hfound⟩, members, hshows⟩ := hs.isOpen n (List.mem_cons_self ..)
  have hsize := hshows.lt_size
  obtain ⟨hn, hbelow⟩ := List.forall_mem_cons.1 hs.below
  cases hshows with
  | scalar hscalar => cases hscalar
  | @mapping _ pairs _ hnode hmembers =>
      obtain ⟨t, hrun, ht, hextends, hfull⟩ :=
        run_make_members hmembers hn hs [] fun _ _ => List.forall_mem_nil _
      have hbound : n < t.objects.size := ht.size_eq ▸ hsize
      have hfill : (fill n).run s = .ok ((), { t with
          objects := t.objects.setIfInBounds n (some (.mapping (entriesOf nodes pairs))) }) := by
        rw [fill, StateT.run_bind, run_make_made hfound, ok_bind]
        show (makeMembers n >>= fun entries => setObject n (.mapping entries)).run s = _
        rw [StateT.run_bind, run_make_members_of (hs.nodes_eq ▸ hnode)
          (hs.nodes_eq ▸ hmembers.have_names) hrun]
        rfl
      refine ⟨_, hfill, ht.set hsize (fun m hm => by simp [hm]) (fun _ => ?_) (fun _ => ?_) hbelow
        ht.waits, hextends.trans (extends_set hbound _)⟩
      · exact ⟨⟨_, rfl⟩, members, .mapping hnode hmembers⟩
      · exact ⟨.mapping hnode, hfull⟩

/-- The mappings of a round are filled. -/
theorem run_fill_each (hs : Sound nodes pending least s) :
    ∃ t, (pending.forM fill).run s = .ok ((), t) ∧ Sound nodes [] least t ∧
      Extends s.objects t.objects := by
  induction pending generalizing s with
  | nil => exact ⟨s, rfl, hs, .refl _⟩
  | cons n pending ih =>
      obtain ⟨t, hfill, ht, hextends⟩ := run_fill hs
      obtain ⟨last, hrun, hlast, hrest⟩ := ih ht
      refine ⟨last, ?_, hlast, hextends.trans hrest⟩
      show (fill n >>= fun _ => pending.forM fill).run s = _
      rw [StateT.run_bind, hfill, ok_bind, hrun]

/-- A round begins. -/
theorem Sound.round (hs : Sound nodes [] least s) :
    Sound nodes s.waiting.reverse (least + 1) { s with waiting := [] } where
  nodes_eq := hs.nodes_eq
  size_eq := hs.size_eq
  isOpen n hn := hs.isOpen n (by simpa using hn)
  isDone n object hobject hn := hs.isDone n object hobject (by simpa using hn)
  below n hn := Nat.succ_le_succ (hs.waits n (List.mem_reverse.1 hn))
  waits := List.forall_mem_nil _

/-- All collections are filled, since after as many rounds as there are nodes none can wait. -/
theorem run_fill_all {fuel : Nat} (hs : Sound nodes [] least s) (hfuel : nodes.size ≤ least + fuel) :
    ∃ t, (fillAll fuel).run s = .ok ((), t) ∧ Extends s.objects t.objects ∧
      ∀ n object, Has t.objects n object → IsFinal nodes n object ∧ IsFull t.objects object := by
  have hempty : s.waiting = [] → ∀ n object, Has s.objects n object →
      IsFinal nodes n object ∧ IsFull s.objects object := fun hwaiting n object hobject =>
    hs.isDone n object hobject (by simp [hwaiting])
  induction fuel generalizing s least with
  | zero =>
      -- A number that waits is that of a node, but the rounds have gone beyond all nodes.
      have hwaiting : s.waiting = [] := List.eq_nil_iff_forall_not_mem.2 fun n hn => by
        obtain ⟨-, members, hshows⟩ := hs.isOpen n hn
        have hsize := hshows.lt_size
        have hleast := hs.waits n hn
        omega
      exact ⟨s, rfl, .refl _, hempty hwaiting⟩
  | succ fuel ih =>
      by_cases hwaiting : s.waiting = []
      · refine ⟨s, ?_, .refl _, hempty hwaiting⟩
        rw [fillAll, StateT.run_bind, StateT.run_get, pure_bind, hwaiting]
        rfl
      · obtain ⟨t, hround, ht, hextends⟩ := run_fill_each hs.round
        obtain ⟨last, hrun, hrest, hdone⟩ := ih ht (by omega) fun hnone n object hobject =>
          ht.isDone n object hobject (by simp [hnone])
        refine ⟨last, ?_, hextends.trans hrest, hdone⟩
        rw [fillAll, StateT.run_bind, StateT.run_get, pure_bind,
          if_pos (by simpa using hwaiting)]
        show (s.waiting.reverse.forM fill >>= fun _ => fillAll fuel).run { s with waiting := [] } = _
        rw [StateT.run_bind, hround, ok_bind, hrun]

end Maker

open Maker

variable {objects : Array (Option Object)}

mutual

/-- The value of a node that says what a value is, if all objects are filled. Nodes in a collection have
greater numbers than the collection, so there are no more inside each other than there are nodes. -/
theorem value_at_shows {n : Nat} {v : Output} {depth levels : Nat} {around : List Nat}
    (hdone : ∀ n object, Has objects n object → IsFinal nodes n object ∧ IsFull objects object)
    (h : Shows nodes n v) (hhas : ∃ object, Has objects n object) (haround : ∀ m ∈ around, m < n)
    (hdepth : nodes.size < n + depth) : valueAt objects depth levels around n = v.value := by
  have hsize := h.lt_size
  obtain ⟨depth, rfl⟩ : ∃ m, depth = m + 1 := ⟨depth - 1, by omega⟩
  obtain ⟨object, hobject⟩ := hhas
  obtain ⟨hfinal, hfull⟩ := hdone n object hobject
  have houtside : around.contains n = false := by
    refine Bool.eq_false_iff.2 fun hmem => ?_
    exact Nat.lt_irrefl n (haround n (List.contains_iff_mem.1 hmem))
  rw [valueAt]
  simp only [show (objects[n]?).join = some object by rw [hobject]; rfl, houtside]
  cases h with
  | scalar hv hnode =>
      obtain rfl := hfinal.scalar_eq hv hnode
      rfl
  | mapping hnode hmembers =>
      obtain rfl := hfinal.mapping_eq hnode
      have hbefore : ∀ m ∈ around, m ≤ n := fun m hm => Nat.le_of_lt (haround m hm)
      -- Whether or not the mapping counts as one around its members, their numbers are greater.
      have hinside : ∀ m ∈ if levels = 0 then n :: around else around, m ≤ n := by
        split
        · exact List.forall_mem_cons.2 ⟨Nat.le_refl n, hbefore⟩
        · exact hbefore
      have hnext : nodes.size ≤ n + depth := by omega
      exact congrArg Value.mapping (values_at_members hdone hmembers hfull hinside hnext)

theorem values_at_members {n : Nat} {pairs : List (Nat × Nat)} {members : List (Text × Output)}
    {depth levels : Nat} {around : List Nat}
    (hdone : ∀ n object, Has objects n object → IsFinal nodes n object ∧ IsFull objects object)
    (h : ShowsMembers nodes n pairs members)
    (hfull : IsFull objects (.mapping (entriesOf nodes pairs))) (haround : ∀ m ∈ around, m ≤ n)
    (hdepth : nodes.size ≤ n + depth) :
    (entriesOf nodes pairs).map
      (fun entry => (entry.1, valueAt objects depth levels around entry.2)) =
      memberValues members := by
  cases h with
  | nil => rfl
  | @cons _ key value name v pairs members _ hnumber hkey hvalue _ hmembers =>
      have hentries : entriesOf nodes ((key, value) :: pairs) =
          (.text name, value) :: entriesOf nodes pairs := by
        simp [entriesOf, hkey]
      rw [hentries] at hfull ⊢
      obtain ⟨hfirst, hrest⟩ := List.forall_mem_cons.1 hfull
      rw [List.map_cons, memberValues, values_at_members hdone hmembers hrest haround hdepth,
        value_at_shows hdone hvalue hfirst (fun m hm => Nat.lt_of_le_of_lt (haround m hm) hnumber)
          (by omega)]

end

/-- Nodes that say what a mapping is are made its value. -/
theorem value_of_shows {graph : Graph} (h : Shows graph.nodes graph.root (.mapping members)) :
    graph.value = .ok (Output.mapping members).value := by
  have hnone : ∀ n object, ¬ Has (Array.replicate graph.nodes.size none) n object := by
    intro n object hobject
    have hvalue := (Array.getElem?_eq_some_iff.1 hobject).2
    simp at hvalue
  have hfirst : Sound graph.nodes [] 0 ⟨graph.nodes, Array.replicate graph.nodes.size none, []⟩ :=
    { nodes_eq := rfl
      size_eq := Array.size_replicate
      isOpen := List.forall_mem_nil _
      isDone := fun n object hobject => absurd hobject (hnone n object)
      below := List.forall_mem_nil _
      waits := List.forall_mem_nil _ }
  obtain ⟨_, s, hmake, hs, -, hroot, -⟩ := run_make hfirst h (Nat.zero_le _)
  have hrounds : graph.nodes.size ≤ 0 + (graph.nodes.size + 1) := by omega
  obtain ⟨t, hfill, hextends, hdone⟩ := run_fill_all hs hrounds
  have hvalue : valueAt t.objects (graph.nodes.size + 3) 2 [] graph.root =
      (Output.mapping members).value :=
    value_at_shows hdone h (hextends _ _ hroot) (List.forall_mem_nil _) (by omega)
  have hrun : (make graph.root >>= fun _ => fillAll (graph.nodes.size + 1)).run
      ⟨graph.nodes, Array.replicate graph.nodes.size none, []⟩ = .ok ((), t) := by
    rw [StateT.run_bind, hmake, ok_bind, hfill]
  rw [Graph.value, hrun, ← hvalue]
  rfl

/-- A mapping is read from each of its spellings. -/
theorem read_spelled {w : List Char} (h : Writable 0 members)
    (hw : BlockSpelled 0 members ('\n' :: w)) :
    read (w ++ ['\n']) = .ok (Output.mapping members).value := by
  obtain ⟨graph, hgraph, hshows⟩ := read_graph_spelled h hw
  rw [read, hgraph, ok_bind]
  exact value_of_shows hshows

end Yaml

end ProgramInterface
