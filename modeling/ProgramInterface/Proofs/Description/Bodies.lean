import ProgramInterface.Generate
import ProgramInterface.Proofs.Catalogue.Declarations
import ProgramInterface.Proofs.Grammar.SourceNodes
import ProgramInterface.Proofs.Syntax.Exchange

/-!
# Bodies of functions

The body of a function other than the entry point matters to nothing but the error codes
(`body_exchange`), as long as no items are declared in it. There is one exception: an attribute may hold
a function, and then the words in its body are words of the attribute (`attribute_body_read`).
-/

namespace ProgramInterface

namespace Node

variable {marks : Node → Bool} {part part' root root' : Node} {position : List Nat}
  {around : List (Node × Node)}

/-! ## Names around an exchanged part -/

/-- The name among some siblings is told by their code. -/
theorem name_codes {nodes : List Node} (h : ∀ node ∈ nodes, node.Tidy) :
    ((codes false nodes).find? (·.role = some .name)).map content =
      (nodes.find? (·.role = some .name)).map content := by
  rw [find_role_codes h, Option.map_map]
  refine Option.map_congr fun name hname => content_code ?_
  have hrole : name.role = some .name := by simpa using List.find?_some hname
  simp [keepsText, hrole]

/-- A name is a leaf, so no part is exchanged in one. -/
theorem Exchange.role_ne_name (h : Exchange part part' position around root root')
    (hroot : root.Tidy) (hpart : part.role ≠ some .name) : root.role ≠ some .name := by
  cases h with
  | here => exact hpart
  | inside _ hchildren =>
      intro hname
      have hleaf := hroot.here.name hname
      rw [hchildren] at hleaf
      exact List.append_ne_nil_of_right_ne_nil _ (List.cons_ne_nil _ _) hleaf

/-- A literal is a leaf as well. -/
theorem Exchange.around_not_literal (h : Exchange part part' position around root root')
    (hroot : root.Tidy) (hroot' : root'.Tidy) :
    ∀ pair ∈ around, pair.1.kind ≠ .integerLiteral ∧ pair.2.kind ≠ .integerLiteral := by
  have hinner {root node : Node} {front back : List Node} (hroot : root.Tidy)
      (hchildren : root.children = front ++ node :: back) : root.kind ≠ .integerLiteral := by
    intro hliteral
    have hleaf := hroot.here.literal hliteral
    rw [hchildren] at hleaf
    exact List.append_ne_nil_of_right_ne_nil _ (List.cons_ne_nil _ _) hleaf
  induction h with
  | here => exact nofun
  | inside _ hchildren hchildren' _ _ _ ih =>
      exact List.forall_mem_cons.2 ⟨⟨hinner hroot hchildren, hinner hroot' hchildren'⟩,
        ih (hroot.sides hchildren).2.1 (hroot'.sides hchildren').2.1⟩

/-- The name of a node is not among the part that is exchanged below it. -/
theorem name_around {node : Node} {front back : List Node}
    (h : root.children = front ++ node :: back) (hnode : node.role ≠ some .name) :
    (root.child? .name).map content =
      ((front.find? (·.role = some .name)).map content).or
        ((back.find? (·.role = some .name)).map content) := by
  rw [child?, h, List.find?_append, List.find?_cons_of_neg (by simpa using hnode), Option.map_or]

/-- The nodes around a part have the kinds and names that they have in the other tree. -/
theorem Exchange.around_same (h : Exchange part part' position around root root')
    (hpart : part.Alike part') (hrole : part.role ≠ some .name) (hroot : root.Tidy)
    (hroot' : root'.Tidy) : ∀ pair ∈ around, pair.1.Alike pair.2 ∧
      (pair.1.child? .name).map content = (pair.2.child? .name).map content := by
  induction h with
  | here => exact nofun
  | inside halike hchildren hchildren' hfront hback hbelow ih =>
      obtain ⟨hf, hnode, hb⟩ := hroot.sides hchildren
      obtain ⟨hf', hnode', hb'⟩ := hroot'.sides hchildren'
      have hname := hbelow.role_ne_name hnode hrole
      have hname' := hname
      rw [(hbelow.alike hpart).role] at hname'
      have hnames := @eq_of_codes _
        (fun nodes => (nodes.find? (·.role = some .name)).map content) fun _ => name_codes
      refine List.forall_mem_cons.2 ⟨⟨halike, ?_⟩, ih hnode hnode'⟩
      rw [name_around hchildren hname, name_around hchildren' hname', hnames hf hf' hfront,
        hnames hb hb' hback]

/-! ## Declarations around an exchanged part -/

/-- Whether nothing is told by a part of a tree but what is in it: it is no name and no attribute, and
nothing is declared in it. -/
structure IsBare (part : Node) : Prop where
  role : part.role ≠ some .name
  kind : part.kind ≠ .attributeItem
  inner : ∀ node ∈ part.preorder, node.kind.isDeclared = false

theorem Exchange.marks_next (h : Exchange part part' position around root root')
    (hpart : part.Alike part') (hbare : part.IsBare)
    (hmarks : ∀ pair ∈ around, pair.1.kind = .attributeItem → marks pair.1 = marks pair.2)
    (isMarked : Bool) : root.marksNext marks isMarked = root'.marksNext marks isMarked := by
  have halike := h.alike hpart
  unfold marksNext
  rw [← halike.isNamed, ← halike.kind]
  by_cases hattribute : root.kind = .attributeItem
  · cases h with
    | here => exact absurd hattribute hbare.kind
    | inside => rw [hmarks _ (List.mem_cons_self ..) hattribute]
  · rw [if_neg hattribute, if_neg hattribute]

/-- Both trees declare the same if nothing is declared in the parts and no type around them, and if the
attributes around them mark the same. -/
theorem Exchange.declarations_eq (h : Exchange part part' position around root root')
    (htext : MarksByText marks) (hpart : part.Alike part') (hbare : part.IsBare)
    (hbare' : part'.IsBare) (htypes : ∀ pair ∈ around, pair.1.kind.makesType = false)
    (hmarks : ∀ pair ∈ around, pair.1.kind = .attributeItem → marks pair.1 = marks pair.2)
    (hroot : root.Tidy) (hroot' : root'.Tidy) (stamps : List (Kind × Text))
    (isMarked : Bool) :
    root.declarations marks stamps isMarked = root'.declarations marks stamps isMarked := by
  induction h generalizing stamps isMarked with
  | here => rw [declarations_eq_nil _ _ _ _ hbare.inner, declarations_eq_nil _ _ _ _ hbare'.inner]
  | @inside position around root root' node node' front front' back back' halike hchildren
      hchildren' hfront hback hbelow ih =>
      obtain ⟨hf, hnode, hb⟩ := hroot.sides hchildren
      obtain ⟨hf', hnode', hb'⟩ := hroot'.sides hchildren'
      have hmarks' := fun pair hpair => hmarks pair (List.mem_cons_of_mem _ hpair)
      have hinner := ih (fun pair hpair => htypes pair (List.mem_cons_of_mem _ hpair)) hmarks'
        hnode hnode'
      have hsame := (Exchange.inside halike hchildren hchildren' hfront hback hbelow).around_same
        hpart hbare.role hroot hroot'
      have hname := (hsame _ (List.mem_cons_self ..)).2
      have hstamp : root.stamp = root'.stamp := by
        rw [stamp, stamp, halike.kind, item_name_eq, item_name_eq, hname]
      have hdeclared : root.declared stamps isMarked = root'.declared stamps isMarked := by
        have htype := htypes _ (List.mem_cons_self ..)
        have htype' : root'.kind.makesType = false := halike.kind ▸ htype
        simp only [declared, hname, halike.kind, htype', Bool.false_eq_true, if_false]
      -- The siblings on both sides are the same code: they declare the same, and those in front pass
      -- on the same mark to the node on the way to the part, which passes it on to those behind.
      have hsiblings (stamps : List (Kind × Text)) (isMarked : Bool) :=
        @eq_of_codes _ (declarationsAmong marks stamps isMarked) fun nodes =>
          declarations_codes htext stamps isMarked false nodes
      have hpassed := @eq_of_codes _ (List.foldl (marksNext marks) false) (fun nodes _ =>
        marks_next_codes htext false false nodes) _ _ hf hf' hfront
      rw [declarations_of, declarations_of, hchildren, hchildren', declarations_among_append,
        declarations_among_append, declarationsAmong, declarationsAmong, hdeclared, hstamp,
        halike.kind, hpassed, hsiblings _ _ hf hf' hfront, hinner,
        hbelow.marks_next hpart hbare hmarks', hsiblings _ _ hb hb' hback]

end Node

/-! ## Exchanging bodies -/

/-- Whether `root'` is `root` with another body of a function: `body` is that of a function in no struct
or enumeration, both bodies are blocks, and neither declares an item. -/
structure BodyExchange (body body' : Node) (position : List Nat) (around : List (Node × Node))
    (root root' : Node) : Prop where
  exchange : Node.Exchange body body' position around root root'
  function : ∃ pair ∈ around.getLast?, pair.1.kind = .functionItem ∧
    pair.1.child? .body = some body ∧ pair.2.child? .body = some body'
  block : body.kind = .block ∧ body'.kind = .block
  isNamed : body.isNamed = body'.isNamed
  bare : ∀ node ∈ body.preorder ++ body'.preorder, node.kind.isDeclared = false
  outside : ∀ pair ∈ around, pair.1.kind.makesType = false

/-- The bodies at a position of two trees that differ in no more than these, and the nodes around
them. -/
def exchangedBodies? (position : List Nat) (root root' : Node) :
    Option ((Node × Node) × List (Node × Node)) :=
  (Node.exchangeAt? position root root').filter fun ((body, body'), around) =>
    (∃ pair ∈ around.getLast?, pair.1.kind = .functionItem ∧
      pair.1.child? .body = some body ∧ pair.2.child? .body = some body') ∧
    (body.kind = .block ∧ body'.kind = .block) ∧ body.isNamed = body'.isNamed ∧
    (∀ node ∈ body.preorder ++ body'.preorder, node.kind.isDeclared = false) ∧
    ∀ pair ∈ around, pair.1.kind.makesType = false

namespace BodyExchange

variable {body body' root root' : Node} {position : List Nat} {around : List (Node × Node)}

theorem of_exchanged
    (h : exchangedBodies? position root root' = some ((body, body'), around)) :
    BodyExchange body body' position around root root' := by
  obtain ⟨hat, hsides⟩ := Option.filter_eq_some_iff.1 h
  obtain ⟨hfunction, hblock, hnamed, hbare, houtside⟩ := of_decide_eq_true hsides
  exact ⟨Node.exchange_of_at hat, hfunction, hblock, hnamed, hbare, houtside⟩

theorem is_bare (h : BodyExchange body body' position around root root') :
    body.IsBare ∧ body'.IsBare ∧ body.Alike body' := by
  obtain ⟨_, _, _, hbody, hbody'⟩ := h.function
  have hrole : body.role = some .body := by simpa using List.find?_some hbody
  have hrole' : body'.role = some .body := by simpa using List.find?_some hbody'
  obtain ⟨hkind, hkind'⟩ := h.block
  exact ⟨⟨by simp [hrole], by simp [hkind], fun node hnode =>
      h.bare node (List.mem_append_left _ hnode)⟩,
    ⟨by simp [hrole'], by simp [hkind'], fun node hnode =>
      h.bare node (List.mem_append_right _ hnode)⟩,
    ⟨hkind.trans hkind'.symm, h.isNamed, hrole.trans hrole'.symm⟩⟩

/-- Exchanging a body outside the entry point does not change the account it expects. -/
theorem entry_account_eq (h : BodyExchange body body' position around root root')
    (hapart : ∀ entry ∈ root.firstAt? (Node.isFunctionNamed entryName), ¬ entry.1 <+: position)
    (hroot : root.Tidy) (hroot' : root'.Tidy) :
    (functionNamed? root entryName).map entryAccount =
      (functionNamed? root' entryName).map entryAccount := by
  obtain ⟨hbare, hbare', halike⟩ := h.is_bare
  have hnone {part : Node} (hpart : part.IsBare) :
      part.preorder.find? (Node.isFunctionNamed entryName) = none := by
    refine List.find?_eq_none.2 fun node hnode hnamed => ?_
    have hkind : node.kind = .functionItem := by
      have hstamp := of_decide_eq_true hnamed
      exact congrArg (·.1) hstamp
    have hundeclared := hpart.inner node hnode
    rw [hkind] at hundeclared
    cases hundeclared
  rw [function_named_first, function_named_first]
  refine h.exchange.find_map (fun _ => reads_code_named entryName) (fun pair hpair => ?_)
    (hnone hbare) (hnone hbare') hapart hroot hroot'
  obtain ⟨hkind, hname⟩ := h.exchange.around_same halike hbare.role hroot hroot' pair hpair
  rw [Node.isFunctionNamed, Node.isFunctionNamed, Node.stamp, Node.stamp, hkind.kind,
    Node.item_name_eq, Node.item_name_eq, hname]

/-- The values of literals change by those of the bodies. -/
theorem literal_values (h : BodyExchange body body' position around root root')
    (hroot : root.Tidy) (hroot' : root'.Tidy) :
    ∃ front back, literalValues root = front ++ literalValues body ++ back ∧
      literalValues root' = front ++ literalValues body' ++ back := by
  simp only [literal_values_eq]
  refine h.exchange.filter_map (fun _ _ => reads_code_literal _) (fun pair hpair => ?_) hroot hroot'
  have hvalue {node : Node} (hkind : node.kind ≠ .integerLiteral) : node.literalValue? = none :=
    if_neg (by simpa [QueryKind.isMatch, QueryKind.nodeKinds] using hkind)
  obtain ⟨hkind, hkind'⟩ := h.exchange.around_not_literal hroot hroot' pair hpair
  exact ⟨hvalue hkind, hvalue hkind'⟩

/-- If both trees have error entries, these change by the entries of the bodies. -/
theorem error_entries (h : BodyExchange body body' position around root root')
    (hroot : root.Tidy) (hroot' : root'.Tidy) {threshold : Int}
    {entries entries' : List ErrorEntry} (hentries : errorEntries? threshold root = some entries)
    (hentries' : errorEntries? threshold root' = some entries') :
    ∃ front run run' back, errorEntries? threshold body = some run ∧
      errorEntries? threshold body' = some run' ∧
      entries = front ++ run ++ back ∧ entries' = front ++ run' ++ back := by
  obtain ⟨front, back, hvalues, hvalues'⟩ := h.literal_values hroot hroot'
  have hcodes {root part : Node} (hvalues : literalValues root = front ++ literalValues part ++ back) :
      errorCodes threshold root = front.filter (threshold < ·) ++ errorCodes threshold part ++
        back.filter (threshold < ·) := by
    rw [errorCodes, hvalues, List.filter_append, List.filter_append, errorCodes]
  obtain ⟨hfits, rfl⟩ := error_entries_eq_some.1 hentries
  obtain ⟨hfits', rfl⟩ := error_entries_eq_some.1 hentries'
  rw [hcodes hvalues] at hfits ⊢
  rw [hcodes hvalues'] at hfits' ⊢
  refine ⟨_, _, _, _, error_entries_eq_some.2 ⟨fun code hcode => hfits code ?_, rfl⟩,
    error_entries_eq_some.2 ⟨fun code hcode => hfits' code ?_, rfl⟩,
    by rw [List.map_append, List.map_append], by rw [List.map_append, List.map_append]⟩ <;>
  exact List.mem_append_left _ (List.mem_append_right _ hcode)

end BodyExchange

/-- In tidy trees a body of a function outside the entry point matters to the error codes alone, and
to those in place. Only if it changes which attributes derive both serialization traits, it matters to the
instructions. -/
theorem body_exchange {body body' root root' : Node} {position : List Nat}
    {around : List (Node × Node)} (hroot : root.Tidy) (hroot' : root'.Tidy)
    (h : BodyExchange body body' position around root root')
    (hapart : ∀ entry ∈ root.firstAt? (Node.isFunctionNamed entryName), ¬ entry.1 <+: position) :
    programName root = programName root' ∧
    accountLayouts root = accountLayouts root' ∧
    (∀ mode, typeEntries mode root = typeEntries mode root') ∧
    ((∀ pair ∈ around, pair.1.kind = .attributeItem →
        pair.1.derivesSerialization = pair.2.derivesSerialization) →
      ∀ mode, instructions mode root = instructions mode root') ∧
    ∀ threshold entries entries', errorEntries? threshold root = some entries →
      errorEntries? threshold root' = some entries' →
        ∃ front run run' back, errorEntries? threshold body = some run ∧
          errorEntries? threshold body' = some run' ∧
          entries = front ++ run ++ back ∧ entries' = front ++ run' ++ back := by
  obtain ⟨hbare, hbare', halike⟩ := h.is_bare
  have hunmarked : root.declarationsIn (fun _ => false) = root'.declarationsIn fun _ => false :=
    h.exchange.declarations_eq (fun _ _ _ => rfl) halike hbare hbare' h.outside
      (fun _ _ _ => rfl) hroot hroot' [] false
  refine ⟨program_name_congr hunmarked, account_layouts_congr hunmarked,
    type_entries_congr hunmarked, fun hmarks => ?_, fun _ _ _ => h.error_entries hroot hroot'⟩
  refine instructions_congr ?_ (h.entry_account_eq hapart hroot hroot')
  exact h.exchange.declarations_eq (fun _ hmarker => derives_serialization_code hmarker) halike
    hbare hbare' h.outside hmarks hroot hroot' [] false

/-- Another body with a call and other literals. -/
theorem body_exchange_literals :
    let root := Grammar.sourceFile "fn f()\x7b700\x7dfn entrypoint()\x7b\x7d"
    let root' := Grammar.sourceFile "fn f()\x7ba!(b);800\x7dfn entrypoint()\x7b\x7d"
    ∃ body body' around, BodyExchange body body' [0, 3] around root root' ∧
      (∀ mode, instructions mode root = instructions mode root') ∧
      ∀ entries entries', errorEntries? 500 root = some entries →
        errorEntries? 500 root' = some entries' → ∃ front run run' back,
          errorEntries? 500 body = some run ∧ errorEntries? 500 body' = some run' ∧
          entries = front ++ run ++ back ∧ entries' = front ++ run' ++ back := by
  intro root root'
  have hat : (exchangedBodies? [0, 3] root root').isSome = true := by decide +kernel
  have hunmarked : ∀ found ∈ exchangedBodies? [0, 3] root root', ∀ pair ∈ found.2,
      pair.1.kind ≠ .attributeItem := by decide +kernel
  obtain ⟨⟨⟨body, body'⟩, around⟩, hat⟩ := Option.isSome_iff_exists.1 hat
  have hexchange := BodyExchange.of_exchanged hat
  have hapart : ∀ entry ∈ root.firstAt? (Node.isFunctionNamed entryName),
      ¬ entry.1 <+: [0, 3] := by decide +kernel
  have hmarks : ∀ pair ∈ around, pair.1.kind = .attributeItem →
      pair.1.derivesSerialization = pair.2.derivesSerialization := fun pair hpair hkind =>
    absurd hkind (hunmarked _ hat pair hpair)
  obtain ⟨_, _, _, hinstructions, herrors⟩ := body_exchange
    (Grammar.regular_source_file _).tidy (Grammar.regular_source_file _).tidy hexchange hapart
  exact ⟨body, body', around, hexchange, hinstructions hmarks, herrors 500⟩

/-- A function in an attribute: without the words in its body the attribute derives nothing. -/
theorem attribute_body_read :
    let root := Grammar.sourceFile ("fn entrypoint()\x7b\x7d" ++
      "#[derive=\x7bfn f()\x7bBorshSerialize;BorshDeserialize\x7d\x7d]struct S\x7b\x7d")
    let root' := Grammar.sourceFile ("fn entrypoint()\x7b\x7d" ++
      "#[derive=\x7bfn f()\x7b\x7d\x7d]struct S\x7b\x7d")
    ∃ body body' around, BodyExchange body body' [1, 2, 2, 0, 1, 3] around root root' ∧
      (∀ entry ∈ root.firstAt? (Node.isFunctionNamed entryName),
        ¬ entry.1 <+: [1, 2, 2, 0, 1, 3]) ∧
      instructions .field root ≠ instructions .field root' := by
  intro root root'
  have hat : (exchangedBodies? [1, 2, 2, 0, 1, 3] root root').isSome = true := by decide +kernel
  obtain ⟨⟨⟨body, body'⟩, around⟩, hat⟩ := Option.isSome_iff_exists.1 hat
  have hapart : ∀ entry ∈ root.firstAt? (Node.isFunctionNamed entryName),
      ¬ entry.1 <+: [1, 2, 2, 0, 1, 3] := by decide +kernel
  have hlength : (instructions .field root).length ≠ (instructions .field root').length := by
    decide +kernel
  exact ⟨body, body', around, .of_exchanged hat, hapart, fun h => hlength (congrArg _ h)⟩

end ProgramInterface
