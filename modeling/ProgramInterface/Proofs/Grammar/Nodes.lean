import ProgramInterface.Grammar.Draft
import ProgramInterface.Proofs.Syntax.Preorder

/-!
# The nodes that readers build

Readers build the nodes of a syntax tree from left to right. A node is tidy if it has the form that
its kind and role promise: an integer literal, a name or a comment is a leaf, and a comment plays no
role. It is regular if moreover the text of a literal or a name is one that the lexical rule reads.
`Reader.KeepsRegular` says of a reader that it builds regular nodes only. Every way of putting readers
together keeps that property, so it is found for a reader by going through its definition.
-/

namespace ProgramInterface

/-- A text that the lexical rule for integers reads off the head of a source. -/
def Lexical.IsInteger (text : String) : Prop :=
  ∃ source n, integer? source = some n ∧ text = String.ofList (source.take n)

/-- A text that the lexical rule for names reads off the head of a source. -/
def Lexical.IsName (text : String) : Prop :=
  ∃ source n, name? source = some n ∧ text = String.ofList (source.take n)

namespace Node

/-- Whether a node by itself has the form that its kind and role promise. -/
structure IsTidy (node : Node) : Prop where
  literal : node.kind = .integerLiteral → node.children = []
  name : node.role = some .name → node.children = []
  comment : node.kind.isComment = true → node.role = none ∧ node.children = []

/-- Whether a node by itself is what its kind and role promise. -/
structure IsRegular (node : Node) : Prop extends IsTidy node where
  literal_read : node.kind = .integerLiteral → Lexical.IsInteger node.text
  name_read : node.role = some .name → Lexical.IsName node.text

/-- Whether every node of a tree is tidy. -/
def Tidy (root : Node) : Prop :=
  root.Everywhere IsTidy

/-- Whether every node of a tree is regular. -/
def Regular (root : Node) : Prop :=
  root.Everywhere IsRegular

theorem Regular.tidy {root : Node} (h : root.Regular) : root.Tidy :=
  h.mono fun _ hnode => hnode.toIsTidy

/-- Every integer literal in a tree has a text that the lexical rule reads. -/
def LiteralsRead (root : Node) : Prop :=
  ∀ node ∈ root.preorder, node.kind = .integerLiteral → Lexical.IsInteger node.text

theorem Regular.literals_read {root : Node} (h : root.Regular) : root.LiteralsRead :=
  fun node hnode => (h node hnode).literal_read

end Node

/-- A tree under construction whose nodes are regular. The node built last is no comment, so that a
role may be given to it. -/
structure Draft.Regular (draft : Draft) : Prop where
  nodes : ∀ node ∈ draft.pending ++ draft.done, node.Regular
  last : ∀ node ∈ draft.done.head?, node.kind.isComment = false

/-! ## Kinds and roles

Whether something is promised of a kind or role is told by computation, so that it is settled along
the way while instances are searched for. -/

/-- The kinds that promise nothing: neither integer literals nor comments. -/
@[reducible]
def Kind.isOther : Kind → Bool
  | integerLiteral => false
  | lineComment => false
  | blockComment => false
  | _ => true

/-- The roles that promise nothing: all but that of a name. -/
@[reducible]
def Role.isOther : Option Role → Bool
  | some name => false
  | _ => true

/-- Holds of `true` alone. -/
class Holds (condition : Bool) : Prop where
  holds : condition = true

instance : Holds true :=
  ⟨rfl⟩

theorem Kind.ne_of_other {kind : Kind} (h : kind.isOther = true) : kind ≠ .integerLiteral := by
  rintro rfl
  exact Bool.false_ne_true h

theorem Kind.not_comment_of_other {kind : Kind} (h : kind.isOther = true) :
    kind.isComment = false := by
  cases kind <;> first | rfl | exact absurd h Bool.false_ne_true

theorem Kind.ne_of_comment {kind other : Kind} (h : kind.isComment = true)
    (hother : other.isComment = false) : kind ≠ other := by
  rintro rfl
  exact Bool.false_ne_true (hother.symm.trans h)

theorem Role.ne_of_other {role : Option Role} (h : isOther role = true) : role ≠ some .name := by
  rintro rfl
  exact Bool.false_ne_true h

/-! ## Nodes -/

namespace Node

theorem IsRegular.of_other {node : Node} (hkind : node.kind.isOther = true)
    (hrole : Role.isOther node.role = true) : node.IsRegular where
  literal h := absurd h (Kind.ne_of_other hkind)
  name h := absurd h (Role.ne_of_other hrole)
  comment h := absurd ((Kind.not_comment_of_other hkind).symm.trans h) Bool.false_ne_true
  literal_read h := absurd h (Kind.ne_of_other hkind)
  name_read h := absurd h (Role.ne_of_other hrole)

/-- A node that is no comment may play any role but that of a name. -/
theorem Regular.with_role {node : Node} (h : node.Regular) (hkind : node.kind.isComment = false)
    {role : Option Role} (hrole : Role.isOther role = true) : { node with role }.Regular := by
  obtain ⟨hnode, hchildren⟩ := Everywhere.iff_children.1 h
  refine Everywhere.iff_children.2 ⟨?_, hchildren⟩
  exact
    { literal := hnode.literal
      name := fun hname => absurd hname (Role.ne_of_other hrole)
      comment := fun hcomment => absurd (hkind.symm.trans hcomment) Bool.false_ne_true
      literal_read := hnode.literal_read
      name_read := fun hname => absurd hname (Role.ne_of_other hrole) }

end Node

/-! ## Drafts -/

namespace Draft

variable {draft : Draft}

theorem regular_leaf_of_other {kind : Kind} {role : Option Role} (hkind : kind.isOther = true)
    (hrole : Role.isOther role = true) (isNamed : Bool) (n : Nat) (draft : Draft) :
    (draft.leaf kind isNamed role n).Regular :=
  Node.Everywhere.of_leaf rfl (.of_other hkind hrole)

theorem Regular.of_flush (h : draft.Regular) : ∀ node ∈ draft.flush.done, node.Regular :=
  h.nodes

theorem done_skip_gap_from (fuel : Nat) (draft : Draft) :
    (skipGapFrom fuel draft).done = draft.done := by
  fun_induction skipGapFrom fuel draft with
  | case1 | case2 | case4 => rfl
  | case3 fuel draft c rest hrest hgap ih => exact ih
  | case5 fuel draft c rest hrest hgap shape n hcomment kind node next ih => exact ih

/-- The comments that are skipped are leaves without a role. -/
theorem regular_skip_gap_from (fuel : Nat)
    (h : ∀ node ∈ draft.pending ++ draft.done, node.Regular) :
    ∀ node ∈ (skipGapFrom fuel draft).pending ++ draft.done, node.Regular := by
  fun_induction skipGapFrom fuel draft with
  | case1 | case2 | case4 => exact h
  | case3 fuel draft c rest hrest hgap ih => exact ih h
  | case5 fuel draft c rest hrest hgap shape n hcomment kind node next ih =>
      apply ih
      intro other hother
      rcases List.mem_cons.1 hother with rfl | hold
      · have hliteral : kind ≠ .integerLiteral := by cases shape <;> exact nofun
        have htidy : node.IsTidy :=
          ⟨fun h => absurd h hliteral, nofun, fun _ => ⟨rfl, rfl⟩⟩
        exact Node.Everywhere.of_leaf rfl ⟨htidy, fun h => absurd h hliteral, nofun⟩
      · exact h other hold

theorem Regular.push (h : draft.Regular) {kind : Kind} (isNamed : Bool) {role : Option Role}
    (n : Nat) (hkind : kind.isComment = false)
    (hleaf : (draft.flush.leaf kind isNamed role n).Regular) :
    (draft.push kind isNamed role n).Regular := by
  have hdone : (draft.push kind isNamed role n).done =
      draft.flush.leaf kind isNamed role n :: draft.flush.done := done_skip_gap_from _ _
  refine ⟨?_, ?_⟩
  · rw [hdone]
    refine regular_skip_gap_from _ fun node hnode => ?_
    rcases List.mem_cons.1 hnode with rfl | hold
    · exact hleaf
    · exact h.of_flush node hold
  · rw [hdone]
    rintro node ⟨⟩
    exact hkind

theorem push_ne_nil (kind : Kind) (isNamed : Bool) (role : Option Role) (n : Nat) (draft : Draft) :
    (draft.push kind isNamed role n).done ≠ [] := by
  have hdone : (draft.push kind isNamed role n).done =
      draft.flush.leaf kind isNamed role n :: draft.flush.done := done_skip_gap_from _ _
  rw [hdone]
  exact List.cons_ne_nil _ _

end Draft

/-! ## Readers -/

namespace Reader

/-- A reader that builds regular nodes only and takes none away. -/
class KeepsRegular {α : Type} (reader : Reader α) : Prop where
  keeps : ∀ {draft next : Draft} {result : α}, reader draft = some (result, next) →
    draft.Regular → next.Regular
  filled : ∀ {draft next : Draft} {result : α}, reader draft = some (result, next) →
    draft.done ≠ [] → next.done ≠ []

/-- A reader that builds at least one node. -/
class Builds {α : Type} (reader : Reader α) : Prop where
  builds : ∀ {draft next : Draft} {result : α}, reader draft = some (result, next) →
    next.done ≠ []

/-- A reader that gives a kind which promises nothing. -/
class GivesOther (reader : Reader Kind) : Prop where
  gives : ∀ {draft next : Draft} {kind : Kind}, reader draft = some (kind, next) →
    kind.isOther = true

variable {α β : Type}

/-- A reader that only looks leaves the draft as it was. -/
theorem keeps_regular_of_looking (look : Draft → α) :
    KeepsRegular (fun draft => some (look draft, draft) : Reader α) where
  keeps hread h := by
    cases hread
    exact h
  filled hread h := by
    cases hread
    exact h

instance : KeepsRegular rest := keeps_regular_of_looking _
instance : KeepsRegular atEnd := keeps_regular_of_looking _
instance : KeepsRegular lastKind := keeps_regular_of_looking _
instance : KeepsRegular mark := keeps_regular_of_looking id
instance (text : String) : KeepsRegular (sees text) := keeps_regular_of_looking _
instance (sign : String) : KeepsRegular (atSign sign) := keeps_regular_of_looking _
instance (word : String) : KeepsRegular (atWord word) := keeps_regular_of_looking _
instance (reader : Reader α) : KeepsRegular (wouldRead reader) := keeps_regular_of_looking _
instance (a : α) : KeepsRegular (do return a : Reader α) := keeps_regular_of_looking fun _ => a

instance : KeepsRegular (refuse : Reader α) where
  keeps hread := nomatch hread
  filled hread := nomatch hread

instance : Builds (refuse : Reader α) where
  builds hread := nomatch hread

theorem bind_eq_some {reader : Reader α} {then_ : α → Reader β} {draft last : Draft}
    {result : β} : (reader >>= then_) draft = some (result, last) ↔
      ∃ a next, reader draft = some (a, next) ∧ then_ a next = some (result, last) := by
  show (reader draft).bind (fun p => then_ p.1 p.2) = _ ↔ _
  simp [Option.bind_eq_some_iff]

theorem KeepsRegular.bind {reader : Reader α} {then_ : α → Reader β}
    (first : KeepsRegular reader) (second : ∀ a, KeepsRegular (then_ a)) :
    KeepsRegular (reader >>= then_) where
  keeps hread h := by
    obtain ⟨a, next, hfirst, hsecond⟩ := bind_eq_some.1 hread
    exact (second a).keeps hsecond (first.keeps hfirst h)
  filled hread h := by
    obtain ⟨a, next, hfirst, hsecond⟩ := bind_eq_some.1 hread
    exact (second a).filled hsecond (first.filled hfirst h)

instance (reader : Reader α) (then_ : α → Reader β) [first : KeepsRegular reader]
    [second : ∀ a, KeepsRegular (then_ a)] : KeepsRegular (reader >>= then_) :=
  .bind first second

theorem Builds.bind_left {reader : Reader α} {then_ : α → Reader β} (first : Builds reader)
    (second : ∀ a, KeepsRegular (then_ a)) : Builds (reader >>= then_) where
  builds hread := by
    obtain ⟨a, next, hfirst, hsecond⟩ := bind_eq_some.1 hread
    exact (second a).filled hsecond (first.builds hfirst)

theorem Builds.bind_right {reader : Reader α} {then_ : α → Reader β}
    (second : ∀ a, Builds (then_ a)) : Builds (reader >>= then_) where
  builds hread := by
    obtain ⟨a, next, _, hsecond⟩ := bind_eq_some.1 hread
    exact (second a).builds hsecond

instance (reader : Reader α) (then_ : α → Reader β) [first : Builds reader]
    [second : ∀ a, KeepsRegular (then_ a)] : Builds (reader >>= then_) :=
  .bind_left first second

instance (reader : Reader α) (then_ : α → Reader β) [second : ∀ a, Builds (then_ a)] :
    Builds (reader >>= then_) :=
  .bind_right second

instance (condition : Prop) [Decidable condition] (yes no : Reader α) [hyes : KeepsRegular yes]
    [hno : KeepsRegular no] : KeepsRegular (if condition then yes else no) := by
  split
  · exact hyes
  · exact hno

instance (condition : Prop) [Decidable condition] (yes no : Reader α) [hyes : Builds yes]
    [hno : Builds no] : Builds (if condition then yes else no) := by
  split
  · exact hyes
  · exact hno

/-! ### Leaves -/

theorem keeps_regular_leaf {kind : Kind} {role : Option Role} (hkind : kind.isOther = true)
    (hrole : Role.isOther role = true) (isNamed : Bool) (n : Nat) :
    KeepsRegular (leaf kind isNamed role n) where
  keeps hread h := by
    cases hread
    exact h.push isNamed n (Kind.not_comment_of_other hkind)
      (Draft.regular_leaf_of_other hkind hrole isNamed n _)
  filled hread _ := by
    cases hread
    exact Draft.push_ne_nil _ _ _ _ _

instance (kind : Kind) (isNamed : Bool) (role : Option Role) (n : Nat)
    [hkind : Holds kind.isOther] [hrole : Holds (Role.isOther role)] :
    KeepsRegular (leaf kind isNamed role n) :=
  keeps_regular_leaf hkind.holds hrole.holds isNamed n

instance (kind : Kind) (isNamed : Bool) (role : Option Role) (n : Nat) :
    Builds (leaf kind isNamed role n) where
  builds hread := by
    cases hread
    exact Draft.push_ne_nil _ _ _ _ _

theorem lexeme_eq_some {kind : Kind} {role : Option Role} {length? : List Char → Option Nat}
    {draft next : Draft} {result : Unit}
    (h : lexeme kind role length? draft = some (result, next)) :
    ∃ n, length? draft.rest = some n ∧ next = draft.push kind true role n := by
  unfold lexeme at h
  split at h
  · cases h
    exact ⟨_, ‹_›, rfl⟩
  · cases h

instance (kind : Kind) (role : Option Role) (length? : List Char → Option Nat) :
    Builds (lexeme kind role length?) where
  builds hread := by
    obtain ⟨n, _, rfl⟩ := lexeme_eq_some hread
    exact Draft.push_ne_nil _ _ _ _ _

/-- A lexeme is regular if its leaf is, read where the draft stands. -/
theorem keeps_regular_lexeme {kind : Kind} {role : Option Role} {length? : List Char → Option Nat}
    (hkind : kind.isComment = false)
    (hleaf : ∀ (draft : Draft) n, length? draft.rest = some n →
      (draft.leaf kind true role n).Regular) :
    KeepsRegular (lexeme kind role length?) where
  keeps {draft _ _} hread h := by
    obtain ⟨n, hn, rfl⟩ := lexeme_eq_some hread
    exact h.push true n hkind (hleaf draft.flush n hn)
  filled hread _ := Builds.builds hread

instance (kind : Kind) (role : Option Role) (length? : List Char → Option Nat)
    [hkind : Holds kind.isOther] [hrole : Holds (Role.isOther role)] :
    KeepsRegular (lexeme kind role length?) :=
  keeps_regular_lexeme (Kind.not_comment_of_other hkind.holds) fun draft n _ =>
    Draft.regular_leaf_of_other hkind.holds hrole.holds true n draft

/-- The one reader that builds integer literals. -/
instance : KeepsRegular (lexeme .integerLiteral none Lexical.integer?) :=
  keeps_regular_lexeme rfl fun draft n hn =>
    Node.Everywhere.of_leaf rfl
      ⟨⟨fun _ => rfl, nofun, nofun⟩, fun _ => ⟨draft.rest, n, hn, rfl⟩, nofun⟩

/-- The one reader that builds names. -/
theorem keeps_regular_name {kind : Kind} (hkind : kind.isOther = true) (role : Option Role) :
    KeepsRegular (lexeme kind role Lexical.name?) := by
  have hcomment := Kind.not_comment_of_other hkind
  refine keeps_regular_lexeme hcomment fun draft n hn => Node.Everywhere.of_leaf rfl ?_
  exact
    { literal := fun _ => rfl
      name := fun _ => rfl
      comment := fun h => absurd (hcomment.symm.trans h) Bool.false_ne_true
      literal_read := fun h => absurd h (Kind.ne_of_other hkind)
      name_read := fun _ => ⟨draft.rest, n, hn, rfl⟩ }

/-- A piece of text, a sign and a word are read as leaves if they stand at the head of the rest. -/
theorem guarded_eq_some {condition : Draft → Bool} {n : Nat} {draft next : Draft} {result : Unit}
    (h : (if condition draft then some ((), draft.push .token false none n) else none) =
      some (result, next)) : next = draft.push .token false none n := by
  split at h
  · cases h
    rfl
  · cases h

theorem keeps_regular_of_guard (condition : Draft → Bool) (n : Nat) :
    KeepsRegular (fun draft =>
      if condition draft then some ((), draft.push .token false none n) else none :
        Reader Unit) where
  keeps hread h := by
    rw [guarded_eq_some hread]
    exact h.push false n rfl (Draft.regular_leaf_of_other rfl rfl false n _)
  filled hread _ := by
    rw [guarded_eq_some hread]
    exact Draft.push_ne_nil _ _ _ _ _

theorem builds_of_guard (condition : Draft → Bool) (n : Nat) :
    Builds (fun draft =>
      if condition draft then some ((), draft.push .token false none n) else none :
        Reader Unit) where
  builds hread := by
    rw [guarded_eq_some hread]
    exact Draft.push_ne_nil _ _ _ _ _

instance (text : String) : KeepsRegular (token text) :=
  keeps_regular_of_guard (fun draft => text.toList.isPrefixOf draft.rest) _

instance (text : String) : Builds (token text) :=
  builds_of_guard (fun draft => text.toList.isPrefixOf draft.rest) _

theorem sign_eq (text : String) : sign text = fun draft =>
    if decide (Lexical.sign draft.rest = text.toList) then
      some ((), draft.push .token false none text.toList.length)
    else none := by
  funext draft
  simp only [decide_eq_true_eq]
  rfl

instance (text : String) : KeepsRegular (sign text) :=
  sign_eq text ▸ keeps_regular_of_guard (fun draft => Lexical.sign draft.rest = text.toList) _

instance (text : String) : Builds (sign text) :=
  sign_eq text ▸ builds_of_guard (fun draft => Lexical.sign draft.rest = text.toList) _

instance (text : String) : KeepsRegular (word text) :=
  keeps_regular_of_guard (fun draft => Lexical.beginsWithWord text.toList draft.rest) _

instance (text : String) : Builds (word text) :=
  builds_of_guard (fun draft => Lexical.beginsWithWord text.toList draft.rest) _

/-! ### Choice and repetition -/

theorem optional_eq_some {reader : Reader Unit} {draft next : Draft} {result : Unit}
    (h : optional reader draft = some (result, next)) :
    reader draft = some (result, next) ∨ next = draft := by
  unfold optional at h
  split at h
  · cases h
    exact .inl ‹_›
  · cases h
    exact .inr rfl

instance (reader : Reader Unit) [inner : KeepsRegular reader] :
    KeepsRegular (optional reader) where
  keeps hread h := by
    obtain hinner | rfl := optional_eq_some hread
    · exact inner.keeps hinner h
    · exact h
  filled hread h := by
    obtain hinner | rfl := optional_eq_some hread
    · exact inner.filled hinner h
    · exact h

theorem or_else_eq_some {first second : Reader α} {draft next : Draft} {result : α}
    (h : orElse first second draft = some (result, next)) :
    first draft = some (result, next) ∨ second draft = some (result, next) := by
  unfold orElse at h
  split at h
  · cases h
    exact .inl ‹_›
  · exact .inr h

theorem KeepsRegular.or_else {first second : Reader α} (hfirst : KeepsRegular first)
    (hsecond : KeepsRegular second) : KeepsRegular (orElse first second) where
  keeps hread h := (or_else_eq_some hread).elim (hfirst.keeps · h) (hsecond.keeps · h)
  filled hread h := (or_else_eq_some hread).elim (hfirst.filled · h) (hsecond.filled · h)

instance (first second : Reader α) [hfirst : KeepsRegular first]
    [hsecond : KeepsRegular second] : KeepsRegular (orElse first second) :=
  .or_else hfirst hsecond

theorem Builds.or_else {first second : Reader α} (hfirst : Builds first)
    (hsecond : Builds second) : Builds (orElse first second) where
  builds hread := (or_else_eq_some hread).elim hfirst.builds hsecond.builds

instance (first second : Reader α) [hfirst : Builds first] [hsecond : Builds second] :
    Builds (orElse first second) :=
  .or_else hfirst hsecond

/-- What a reader keeps is kept by all of its repetitions. -/
theorem many_from_keeps {reader : Reader Unit} {P : Draft → Prop}
    (hreader : ∀ {draft next : Draft}, reader draft = some ((), next) → P draft → P next)
    (fuel : Nat) {draft : Draft} (h : P draft) : P (manyFrom reader fuel draft) := by
  fun_induction manyFrom reader fuel draft with
  | case1 | case3 => exact h
  | case2 fuel draft next hread ih => exact ih (hreader hread h)

instance (reader : Reader Unit) [inner : KeepsRegular reader] : KeepsRegular (many reader) where
  keeps hread h := by
    cases hread
    exact many_from_keeps inner.keeps _ h
  filled hread h := by
    cases hread
    exact many_from_keeps (P := fun draft => draft.done ≠ []) inner.filled _ h

theorem while_true_from_keeps {reader : Reader Bool} {P : Draft → Prop}
    (hreader : ∀ {draft next : Draft} {more : Bool}, reader draft = some (more, next) →
      P draft → P next)
    (fuel : Nat) {draft next : Draft} {result : Unit}
    (hread : whileTrueFrom reader fuel draft = some (result, next)) (h : P draft) : P next := by
  fun_induction whileTrueFrom reader fuel draft with
  | case1 =>
      cases hread
      exact h
  | case2 fuel draft following hstep ih => exact ih hread (hreader hstep h)
  | case3 fuel draft following hstep =>
      cases hread
      exact hreader hstep h
  | case4 => cases hread

instance (reader : Reader Bool) [inner : KeepsRegular reader] : KeepsRegular (whileTrue reader) where
  keeps hread h := while_true_from_keeps inner.keeps _ hread h
  filled hread h :=
    while_true_from_keeps (P := fun draft => draft.done ≠ []) inner.filled _ hread h

/-! ### Nodes with children -/

theorem apart_eq_some {reader : Reader α} {draft next : Draft} {result : α}
    (h : apart reader draft = some (result, next)) :
    ∃ inside, reader { draft.flush with done := [] } = some (result, inside) ∧
      next = { inside with done := inside.done ++ draft.flush.done } := by
  unfold apart at h
  dsimp only at h
  split at h
  · cases h
    exact ⟨_, ‹_›, rfl⟩
  · cases h

/-- What was built before is set aside meanwhile, and stands behind what is built inside. That is at
least one node, so no comment comes last. -/
instance (reader : Reader α) [inner : KeepsRegular reader] [built : Builds reader] :
    KeepsRegular (apart reader) where
  keeps {draft _ _} hread h := by
    obtain ⟨inside, hinside, rfl⟩ := apart_eq_some hread
    have hempty : Draft.Regular { draft.flush with done := [] } := ⟨nofun, nofun⟩
    have hregular := inner.keeps hinside hempty
    refine ⟨fun node hnode => ?_, fun node hnode => ?_⟩
    · rw [← List.append_assoc] at hnode
      rcases List.mem_append.1 hnode with hnew | hold
      · exact hregular.nodes node hnew
      · exact h.of_flush node hold
    · obtain ⟨last, rest, hdone⟩ := List.exists_cons_of_ne_nil (built.builds hinside)
      rw [hdone] at hnode
      exact hregular.last node (hdone ▸ hnode)
  filled hread h := by
    obtain ⟨inside, hinside, rfl⟩ := apart_eq_some hread
    exact List.append_ne_nil_of_left_ne_nil (built.builds hinside) _

instance (reader : Reader α) [built : Builds reader] : Builds (apart reader) where
  builds hread := by
    obtain ⟨inside, hinside, rfl⟩ := apart_eq_some hread
    exact List.append_ne_nil_of_left_ne_nil (built.builds hinside) _

/-- The nodes built so far become the children of a node of which nothing is promised. -/
theorem regular_fold {origin draft next : Draft} {kind : Kind} {role : Option Role}
    {result : Unit} (hread : fold origin kind role draft = some (result, next))
    (h : draft.Regular) (hkind : kind.isOther = true) (hrole : Role.isOther role = true) :
    next.Regular := by
  cases hread
  refine ⟨fun node hnode => ?_, fun node hnode => ?_⟩
  · rcases List.mem_append.1 hnode with hpending | hdone
    · exact h.nodes node (List.mem_append_left _ hpending)
    · rw [List.mem_singleton.1 hdone]
      refine Node.Everywhere.iff_children.2 ⟨.of_other hkind hrole, fun child hchild => ?_⟩
      exact h.nodes child (List.mem_append_right _ (List.mem_reverse.1 hchild))
  · cases hnode
    exact Kind.not_comment_of_other hkind

instance (origin : Draft) (kind : Kind) (role : Option Role) : Builds (fold origin kind role) where
  builds hread := by
    cases hread
    exact List.cons_ne_nil _ _

instance (origin : Draft) (kind : Kind) (role : Option Role) [hkind : Holds kind.isOther]
    [hrole : Holds (Role.isOther role)] : KeepsRegular (fold origin kind role) where
  keeps hread h := regular_fold hread h hkind.holds hrole.holds
  filled hread _ := Builds.builds hread

/-- The kind of the node may depend on what was read. -/
instance (reader : Reader Kind) (origin : Draft) (role : Option Role)
    [inner : KeepsRegular reader] [other : GivesOther reader] [hrole : Holds (Role.isOther role)] :
    KeepsRegular (reader >>= fun kind => fold origin kind role) where
  keeps hread h := by
    obtain ⟨kind, next, hkind, hfold⟩ := bind_eq_some.1 hread
    exact regular_fold hfold (inner.keeps hkind h) (other.gives hkind) hrole.holds
  filled hread _ := Builds.builds hread

instance (kind : Kind) (role : Option Role) (reader : Reader Unit) [KeepsRegular reader]
    [Holds kind.isOther] [Holds (Role.isOther role)] :
    KeepsRegular (branch kind role reader) := by
  unfold branch
  infer_instance

instance (kind : Kind) (role : Option Role) (reader : Reader Unit) :
    Builds (branch kind role reader) := by
  unfold branch
  infer_instance

instance (role : Role) [hrole : Holds (Role.isOther (some role))] :
    KeepsRegular (setRole role) where
  keeps {draft next _} hread h := by
    unfold setRole at hread
    split at hread
    · rename_i node rest hdone
      cases hread
      have hlast : node.kind.isComment = false := h.last node (by simp [hdone])
      refine ⟨fun other hother => ?_, ?_⟩
      · rcases List.mem_append.1 hother with hpending | hbuilt
        · exact h.nodes other (List.mem_append_left _ hpending)
        · rcases List.mem_cons.1 hbuilt with rfl | hrest
          · exact (h.nodes node (by simp [hdone])).with_role hlast hrole.holds
          · exact h.nodes other (by simp [hdone, hrest])
      · rintro other ⟨⟩
        exact hlast
    · cases hread
      exact h
  filled {draft next _} hread h := by
    unfold setRole at hread
    split at hread
    · cases hread
      exact List.cons_ne_nil _ _
    · cases hread
      exact h

instance (closing : String) (item : Reader Unit) [KeepsRegular item] :
    KeepsRegular (separated closing item) := by
  unfold separated
  infer_instance

instance (opening closing : String) (item : Reader Unit) [KeepsRegular item] :
    KeepsRegular (bracketed opening closing item) := by
  unfold bracketed
  infer_instance

/-! ## Kinds that readers give -/

instance (kind : Kind) [h : Holds kind.isOther] : GivesOther (do return kind) where
  gives hread := by
    cases hread
    exact h.holds

instance (reader : Reader α) (then_ : α → Reader Kind) [second : ∀ a, GivesOther (then_ a)] :
    GivesOther (reader >>= then_) where
  gives hread := by
    obtain ⟨a, next, _, hsecond⟩ := bind_eq_some.1 hread
    exact (second a).gives hsecond

instance (condition : Prop) [Decidable condition] (yes no : Reader Kind) [hyes : GivesOther yes]
    [hno : GivesOther no] : GivesOther (if condition then yes else no) := by
  split
  · exact hyes
  · exact hno

instance (first second : Reader Kind) [hfirst : GivesOther first] [hsecond : GivesOther second] :
    GivesOther (orElse first second) where
  gives hread := (or_else_eq_some hread).elim hfirst.gives hsecond.gives

end Reader

end ProgramInterface
