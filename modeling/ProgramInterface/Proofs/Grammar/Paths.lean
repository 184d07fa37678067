import ProgramInterface.Grammar.SourceFile
import ProgramInterface.Proofs.Grammar.Draft
import ProgramInterface.Proofs.Shape.TypeTree

/-!
# Reading paths

A path is read name by name, and what was read so far is one node all along (`path_repeats`), be it the
path of a macro (`read_simple_path`) or of a type (`read_type_names`). Where a path stands no other type
is read, and no macro invocation.
-/

namespace ProgramInterface

open Lexical Draft Reader

namespace Grammar

/-! ## What stands behind -/

/-- The characters that end a type. -/
def closers : List Char :=
  [',', '>', ')', ']', ';', '\x7d']

/-- Whether a text begins with what ends a type. -/
def Closes (rest : List Char) : Prop :=
  ∃ c ∈ closers, rest.head? = some c

/-- Whether a text begins with what ends a path: what ends a type, or type arguments. -/
def EndsPath (rest : List Char) : Prop :=
  ∃ c ∈ '<' :: closers, rest.head? = some c

theorem Closes.ends_path {rest : List Char} (h : Closes rest) : EndsPath rest := by
  obtain ⟨c, hc, hhead⟩ := h
  exact ⟨c, List.mem_cons_of_mem _ hc, hhead⟩

theorem head_ne_of_mem {chars rest : List Char} (h : ∃ d ∈ chars, rest.head? = some d) {c : Char}
    (hc : c ∉ chars) : rest.head? ≠ some c := by
  obtain ⟨d, hd, hhead⟩ := h
  intro heq
  rw [hhead] at heq
  exact hc (Option.some.inj heq ▸ hd)

theorem Closes.head_ne {rest : List Char} (h : Closes rest) {c : Char} (hc : c ∉ closers) :
    rest.head? ≠ some c :=
  head_ne_of_mem h hc

theorem EndsPath.head_ne {rest : List Char} (h : EndsPath rest) {c : Char}
    (hc : c ∉ '<' :: closers) : rest.head? ≠ some c :=
  head_ne_of_mem h hc

theorem EndsPath.breaks {rest : List Char} (h : EndsPath rest) : Breaks rest := by
  obtain ⟨d, hd, hhead⟩ := h
  have hall : ∀ c ∈ '<' :: closers, breaksWord c = true := by decide
  intro c hc
  rw [hhead] at hc
  cases hc
  exact hall d hd

theorem EndsPath.stops {rest : List Char} (h : EndsPath rest) : Stops rest := by
  obtain ⟨d, hd, hhead⟩ := h
  have hall : ∀ c ∈ '<' :: closers, isGap c = false ∧ c ≠ '/' := by decide
  intro c hc
  rw [hhead] at hc
  cases hc
  exact hall d hd

/-! ## Names -/

variable {draft : Draft} {name gap rest : List Char} {sub : SubReader}

theorem read_whole_name (h : draft.Stands name gap rest) (hname : IsWholeName name)
    (hbreaks : Breaks rest) (kind : Kind) (role : Option Role) :
    Grammar.name kind role draft = some ((), draft.past name gap rest
      (draft.leaf kind true role name.length :: draft.done)) := by
  refine read_lexeme h ?_
  rw [h.rest_eq]
  exact hname.name_in_front (breaks_append h.gap fun _ => hbreaks)

theorem reserved_spelled : ∀ word ∈ reservedWords,
    (∀ c ∈ word, isNameNext c = true) ∧ 2 ≤ word.length := by
  decide

/-- No reserved word is read where another name stands. -/
theorem not_at_reserved (h : draft.Stands name gap rest) (hname : IsWholeName name)
    (hbreaks : Breaks rest) (hreserved : name ∉ reservedWords) {word : List Char}
    (hword : word ∈ reservedWords) : beginsWithWord word draft.rest = false := by
  obtain ⟨hchars, hlong⟩ := reserved_spelled word hword
  rw [h.rest_eq, hname.begins_with_word (breaks_append h.gap fun _ => hbreaks) hchars hlong]
  exact decide_eq_false fun heq => hreserved (heq ▸ hword)

/-- No word is read in front of what breaks words. -/
theorem not_at_word {text word : List Char} (hbreaks : Breaks text)
    (hchars : ∀ c ∈ word, isNameNext c = true) (hsome : word ≠ []) :
    beginsWithWord word text = false := by
  rw [Bool.eq_false_iff]
  intro hword
  obtain ⟨behind, rfl, _⟩ := begins_with_word_iff.1 hword
  obtain ⟨c, tail, rfl⟩ := List.exists_cons_of_ne_nil hsome
  have hnext := hchars c (List.mem_cons_self ..)
  exact absurd (hbreaks.not_name_next c rfl) (by simp [hnext])

/-! ## Other types -/

theorem for_lifetimes_none (h : draft.Stands name gap rest) (hname : IsWholeName name)
    (hbreaks : Breaks rest) (hreserved : name ∉ reservedWords) : forLifetimes sub draft = none :=
  read_bind_none (word_none (not_at_reserved h hname hbreaks hreserved (by decide)))

/-- The words in front of `fn`. -/
def modifierWords : List (List Char) :=
  ["async", "const", "unsafe", "default", "safe", "extern"].map String.toList

theorem function_modifier_none
    (h : ∀ word ∈ modifierWords, beginsWithWord word draft.rest = false) :
    functionModifier draft = none := by
  have hword (word : String) (hmem : word.toList ∈ modifierWords) :
      Reader.word word draft = none := word_none (h _ hmem)
  rw [functionModifier, or_else_none (hword "async" (by decide)),
    or_else_none (hword "const" (by decide)), or_else_none (hword "unsafe" (by decide)),
    or_else_none (hword "default" (by decide)), or_else_none (hword "safe" (by decide))]
  exact read_bind_none (hword "extern" (by decide))

/-- A name that is a modifier is read as one. -/
theorem read_function_modifier {word : String} (h : draft.Stands word.toList gap rest)
    (hbreaks : Breaks rest) (hword : word = "default" ∨ word = "safe") :
    ∃ mark, functionModifier draft =
      some ((), draft.past word.toList gap rest (mark :: draft.done)) := by
  have hname : IsWholeName word.toList := by
    rcases hword with rfl | rfl <;> rfl
  have hother (other : String) (hchars : ∀ c ∈ other.toList, isNameNext c = true)
      (hlong : 2 ≤ other.toList.length) :
      beginsWithWord other.toList draft.rest = decide (other.toList = word.toList) := by
    rw [h.rest_eq, hname.begins_with_word (breaks_append h.gap fun _ => hbreaks) hchars hlong]
  have hself := hother word (by rcases hword with rfl | rfl <;> decide)
    (by rcases hword with rfl | rfl <;> decide)
  have hnone (other : String) (hchars : ∀ c ∈ other.toList, isNameNext c = true)
      (hlong : 2 ≤ other.toList.length) (hne : other.toList ≠ word.toList) :
      Reader.word other draft = none :=
    word_none ((hother other hchars hlong).trans (decide_eq_false hne))
  obtain ⟨mark, hread, _⟩ := read_word h (hself.trans (decide_eq_true rfl))
  refine ⟨mark, ?_⟩
  unfold functionModifier
  rcases hword with rfl | rfl
  · rw [or_else_none (hnone "async" (by decide) (by decide) (by decide)),
      or_else_none (hnone "const" (by decide) (by decide) (by decide)),
      or_else_none (hnone "unsafe" (by decide) (by decide) (by decide)), or_else_some hread]
  · rw [or_else_none (hnone "async" (by decide) (by decide) (by decide)),
      or_else_none (hnone "const" (by decide) (by decide) (by decide)),
      or_else_none (hnone "unsafe" (by decide) (by decide) (by decide)),
      or_else_none (hnone "default" (by decide) (by decide) (by decide)), or_else_some hread]

/-- In front of a name that is not reserved stands at most one modifier, which is the name. -/
theorem function_modifiers (h : draft.Stands name gap rest) (hname : IsWholeName name)
    (hbreaks : Breaks rest) (hreserved : name ∉ reservedWords) :
    ∃ next, many functionModifier draft = some ((), next) ∧
      beginsWithWord "fn".toList next.rest = false := by
  have hspelled : ∀ word ∈ modifierWords, (∀ c ∈ word, isNameNext c = true) ∧ 2 ≤ word.length := by
    decide
  by_cases hmodifier : ∃ word, (word = "default" ∨ word = "safe") ∧ name = word.toList
  · obtain ⟨word, hword, rfl⟩ := hmodifier
    obtain ⟨mark, hread⟩ := read_function_modifier h hbreaks hword
    have hend : functionModifier (draft.past word.toList gap rest (mark :: draft.done)) = none :=
      function_modifier_none fun other hother =>
        not_at_word hbreaks (hspelled other hother).1 (by rintro rfl; exact absurd hother (by decide))
    have hless : rest.length < draft.rest.length := by
      have hpos : 0 < word.toList.length := List.length_pos_of_ne_nil hname.ne_nil
      rw [h.rest_eq, List.length_append, List.length_append]
      omega
    refine ⟨_, (Repeats.step hread hless (.stop _)).many hend (Nat.le_of_lt h.bound), ?_⟩
    exact not_at_word hbreaks (by decide) (by decide)
  · refine ⟨draft, many_none (function_modifier_none fun word hword => ?_),
      not_at_reserved h hname hbreaks hreserved (by decide)⟩
    by_cases hin : word ∈ reservedWords
    · exact not_at_reserved h hname hbreaks hreserved hin
    · rw [h.rest_eq, hname.begins_with_word (breaks_append h.gap fun _ => hbreaks)
        (hspelled word hword).1 (hspelled word hword).2]
      refine decide_eq_false fun heq => hmodifier ?_
      have hcases : ∀ word ∈ modifierWords, word ∉ reservedWords →
          word = "default".toList ∨ word = "safe".toList := by decide
      rcases hcases word hword hin with hdefault | hsafe
      · exact ⟨"default", .inl rfl, heq ▸ hdefault⟩
      · exact ⟨"safe", .inr rfl, heq ▸ hsafe⟩

theorem function_pointer_none (h : draft.Stands name gap rest) (hname : IsWholeName name)
    (hbreaks : Breaks rest) (hreserved : name ∉ reservedWords) : functionPointer sub draft = none := by
  refine branch_none _ _ h.pending ?_
  have h := h.with_done []
  obtain ⟨next, hmany, hword⟩ := function_modifiers h hname hbreaks hreserved
  rw [read_bind (optional_none (for_lifetimes_none h hname hbreaks hreserved)), read_bind hmany]
  exact read_bind_none (word_none hword)

theorem quantified_type_none (h : draft.Stands name gap rest) (hname : IsWholeName name)
    (hbreaks : Breaks rest) (hreserved : name ∉ reservedWords) : quantifiedType sub draft = none :=
  branch_none _ _ h.pending
    (read_bind_none (for_lifetimes_none (h.with_done []) hname hbreaks hreserved))

theorem dynamic_type_none (h : draft.Stands name gap rest) (hname : IsWholeName name)
    (hbreaks : Breaks rest) (hreserved : name ∉ reservedWords) : dynamicType sub draft = none :=
  branch_none _ _ h.pending <| read_bind_none <| word_none <|
    not_at_reserved (h.with_done []) hname hbreaks hreserved (by decide)

/-! ## Paths -/

theorem token_simple {node : Node} (h : node.IsToken) : node.IsSimple :=
  Node.simple_of_children (by simp [h.kind]) (by simp [h.children])

/-- Whether a node is the path that a text is, or a part of one. -/
structure IsPathNode (node : Node) (text : List Char) : Prop where
  simple : node.IsSimple
  named : node.isNamed = true
  text : node.text = String.ofList text

theorem is_path_leaf (h : draft.Stands name gap rest) (kind : Kind) (role : Option Role)
    (hkind : kind ≠ .genericType) : IsPathNode (draft.leaf kind true role name.length) name where
  simple := Node.simple_of_children hkind nofun
  named := rfl
  text := by rw [h.leaf_eq]

/-- A further name of a path, which is taken with what was read before into a node. -/
def nameStep (kind whole : Kind) (role : Option Role) (origin : Draft) : Reader Unit := do
  sign "::"
  Grammar.name kind none
  fold origin whole role

theorem stops_of_name (hname : IsWholeName name) (behind : List Char) :
    Stops (name ++ behind) := by
  rcases hname.cases with ⟨c, rest, rfl, _, _⟩ | ⟨c, rest, rfl, hc, _⟩
  · exact stops_of_next (by decide)
  · exact stops_of_next (name_next_of_start hc)

theorem read_name_step {origin : Draft} {front gap gap' gap'' : List Char} {kind whole : Kind}
    {role : Option Role} {node : Node}
    (horigin : origin.Stands front gap ("::".toList ++ (gap' ++ (name ++ (gap'' ++ rest)))))
    (hname : IsWholeName name) (hgap : IsBlank gap') (hgap' : IsBlank gap'') (hstops : Stops rest)
    (hbreaks : Breaks rest) (hkind : kind ≠ .genericType) (hwhole : whole ≠ .genericType)
    (hnode : node.IsSimple) :
    ∃ next, nameStep kind whole role origin (origin.past front gap
        ("::".toList ++ (gap' ++ (name ++ (gap'' ++ rest)))) [node]) =
      some ((), origin.past (front ++ gap ++ ("::".toList ++ gap' ++ name)) gap'' rest [next]) ∧
      IsPathNode next (front ++ gap ++ ("::".toList ++ gap' ++ name)) ∧ next.kind = whole := by
  have hsign := horigin.next hgap (stops_of_name hname _) [node]
  have hall : origin.Stands (front ++ gap ++ ("::".toList ++ gap' ++ name)) gap'' rest :=
    horigin.cut (by simp) hgap' hstops
  obtain ⟨mark, hmark, htoken⟩ := read_sign hsign rfl
  rw [past_done] at hmark
  have hword := hsign.next hgap' hstops [mark, node]
  obtain ⟨leaf, hleaf, hpath⟩ : ∃ leaf, Grammar.name kind none _ = some ((), Draft.past _ name gap''
      rest [leaf, mark, node]) ∧ IsPathNode leaf name :=
    ⟨_, read_whole_name hword hname hbreaks kind none, is_path_leaf hword kind none hkind⟩
  refine ⟨origin.node whole role _ [node, mark, leaf], ?_, ⟨?_, rfl, rfl⟩, rfl⟩
  · rw [nameStep, read_bind hmark, read_bind hleaf, past_past, past_past, read_fold hall]
    rfl
  · refine Node.simple_of_children hwhole fun child hchild => ?_
    simp only [Draft.node, List.mem_cons, List.not_mem_nil, or_false] at hchild
    rcases hchild with rfl | rfl | rfl
    · exact hnode
    · exact token_simple htoken
    · exact hpath.simple

theorem stops_of_colon {rest : List Char} : Stops ("::".toList ++ rest) := by
  intro c hc
  cases hc
  decide

theorem breaks_of_colon {rest : List Char} : Breaks ("::".toList ++ rest) := by
  intro c hc
  cases hc
  decide

/-- From behind the first name of a path to behind the last one, a step that reads a further name is
repeated, and what was read so far is one node all along. -/
theorem path_repeats {step : Reader Unit} {origin : Draft} {kind whole : Kind} {role : Option Role}
    {qualifiers : List (List Char)} {last text front gap rest : List Char}
    (hstep : ∀ draft gap name behind, draft.Stands "::".toList gap (name ++ behind) →
      IsWholeName name → step draft = nameStep kind whole role origin draft)
    (hkind : kind ≠ .genericType) (hwhole : whole ≠ .genericType)
    (hspread : Spread (pathPieces last qualifiers) text)
    (hqualifiers : ∀ name ∈ qualifiers, IsWholeName name) (hlast : IsWholeName last)
    (horigin : origin.Stands (front ++ text) gap rest) (hbreaks : Breaks rest) :
    ∃ gap' rest', origin.Stands (front ++ qualifiers.headD last) gap' rest' ∧ Breaks rest' ∧
      ∀ node, IsPathNode node (front ++ qualifiers.headD last) → ∃ next,
        Repeats step (origin.past (front ++ qualifiers.headD last) gap' rest' [node])
          (origin.past (front ++ text) gap rest [next]) ∧
        IsPathNode next (front ++ text) ∧
          ((qualifiers = [] ∧ next = node) ∨ (qualifiers ≠ [] ∧ next.kind = whole)) := by
  induction qualifiers generalizing text front with
  | nil =>
      cases hspread
      exact ⟨gap, rest, horigin, hbreaks, fun node hnode => ⟨node, .stop _, hnode, .inl ⟨rfl, rfl⟩⟩⟩
  | cons name others ih =>
      obtain ⟨gap₁, behind, hgap₁, _, hbehind, rfl⟩ := hspread.exists_tail (List.cons_ne_nil _ _)
      obtain ⟨gap₂, tail, hgap₂, _, htail, rfl⟩ := hbehind.exists_tail (path_pieces_ne_nil last others)
      have hnext : IsWholeName (others.headD last) := by
        cases others with
        | nil => exact hlast
        | cons other => exact hqualifiers other (by simp)
      have hfront : origin.Stands (front ++ name ++ gap₁ ++ ("::".toList ++ gap₂) ++ tail) gap rest :=
        horigin.cut (by simp) horigin.gap horigin.stops
      obtain ⟨gap₃, rest₃, hstands, hbreaks₃, hrepeats⟩ :=
        ih htail (fun other hother => hqualifiers other (List.mem_cons_of_mem _ hother)) hfront
      -- The first name is followed by the sign, and that by the first name of the others.
      have hhere : origin.Stands (front ++ name) gap₁
          ("::".toList ++ (gap₂ ++ (others.headD last ++ (gap₃ ++ rest₃)))) :=
        hstands.cut (by simp) hgap₁ stops_of_colon
      refine ⟨gap₁, _, hhere, breaks_of_colon, fun node hnode => ?_⟩
      obtain ⟨between, hread, hbetween, hwholeOf⟩ := read_name_step hhere hnext hgap₂
        hstands.gap hstands.stops hbreaks₃ hkind hwhole hnode.simple
      have htext : front ++ name ++ gap₁ ++ ("::".toList ++ gap₂ ++ others.headD last) =
          front ++ name ++ gap₁ ++ ("::".toList ++ gap₂) ++ others.headD last := by simp
      rw [htext] at hread hbetween
      have hall : front ++ name ++ gap₁ ++ ("::".toList ++ gap₂) ++ tail =
          front ++ (name ++ gap₁ ++ ("::".toList ++ gap₂ ++ tail)) := by simp
      obtain ⟨result, hrest, hresult, hcases⟩ := hrepeats between hbetween
      rw [hall] at hrest hresult
      have hsign := hhere.next hgap₂ (stops_of_name hnext _) [node]
      refine ⟨result, .step ((hstep _ _ _ _ hsign hnext).trans hread) ?_ hrest, hresult,
        .inr ⟨List.cons_ne_nil _ _, ?_⟩⟩
      · simp only [past, List.length_append]
        have hpos : 0 < "::".toList.length := by decide
        omega
      · rcases hcases with ⟨_, rfl⟩ | ⟨_, hresultOf⟩
        · exact hwholeOf
        · exact hresultOf

/-! ## Paths of names only -/

/-- A further name of a path is read behind a double colon. -/
theorem name_step_none {origin : Draft} {kind whole : Kind} {role : Option Role}
    (h : draft.rest.head? ≠ some ':') : nameStep kind whole role origin draft = none :=
  read_bind_none (sign_none (sign_ne h))

theorem name_head_ne (hname : IsWholeName name) {c : Char} (hc : isNameStart c = false)
    (behind : List Char) : (name ++ behind).head? ≠ some c := by
  rcases hname.cases with ⟨d, tail, rfl, _, _⟩ | ⟨d, tail, rfl, hd, _⟩
  · intro h
    cases h
    exact absurd hc (by decide)
  · intro h
    cases h
    exact Bool.false_ne_true (hc.symm.trans hd)

/-- From behind the first name of a path to behind the path, a step that reads a further name is
repeated. -/
theorem names_repeat {step : Reader Unit} {origin : Draft} (kind whole : Kind) (role : Option Role)
    {path : PathTerm} (hpath : path.IsSpelled)
    (hstep : ∀ draft gap name behind, draft.Stands "::".toList gap (name ++ behind) →
      IsWholeName name → step draft = nameStep kind whole role origin draft)
    (hkind : kind ≠ .genericType) (hwhole : whole ≠ .genericType)
    (horigin : origin.Stands path.text gap rest) (hbreaks : Breaks rest) :
    ∃ gap' rest', origin.Stands path.head gap' rest' ∧ Breaks rest' ∧
      ∀ node, IsPathNode node path.head → ∃ next,
        Repeats step (origin.past path.head gap' rest' [node])
          (origin.past path.text gap rest [next]) ∧
        IsPathNode next path.text ∧
          ((path.qualifiers = [] ∧ next = node) ∨ (path.qualifiers ≠ [] ∧ next.kind = whole)) :=
  path_repeats hstep hkind hwhole hpath.text hpath.qualifiers hpath.last
    (show origin.Stands ([] ++ path.text) gap rest from horigin) hbreaks

theorem head_is_name {path : PathTerm} (h : path.IsSpelled) : IsWholeName path.head := by
  rw [PathTerm.head]
  cases hqualifiers : path.qualifiers with
  | nil => exact h.last
  | cons name rest => exact h.qualifiers name (hqualifiers ▸ List.mem_cons_self ..)

/-- A path stands where its first name does. -/
theorem stands_head {path : PathTerm} (hpath : path.IsSpelled) (h : draft.Stands path.text gap rest)
    (hbreaks : Breaks rest) : ∃ gap' rest', draft.Stands path.head gap' rest' ∧ Breaks rest' := by
  obtain ⟨gap', rest', hhead, hnext, _⟩ := names_repeat .identifier .scopedIdentifier none hpath
    (fun _ _ _ _ _ _ => rfl) nofun nofun h hbreaks
  exact ⟨gap', rest', hhead, hnext⟩

/-- A path is read as a path of names. -/
theorem read_simple_path {path : PathTerm} (hpath : path.IsSpelled)
    (h : draft.Stands path.text gap rest) (hrest : EndsPath rest) (role : Option Role) :
    ∃ node, simplePath role draft =
      some ((), draft.past path.text gap rest (node :: draft.done)) := by
  obtain ⟨origin, horigin⟩ : ∃ origin, origin = { draft with done := [] } := ⟨_, rfl⟩
  have hstands : origin.Stands path.text gap rest := horigin ▸ h.with_done []
  obtain ⟨gap', rest', hhead, hbreaks, hrepeats⟩ := names_repeat .identifier .scopedIdentifier role
    hpath (fun _ _ _ _ _ _ => rfl) nofun nofun hstands hrest.breaks
  have hname := head_is_name hpath
  obtain ⟨node, hrepeats, _⟩ := hrepeats _ (is_path_leaf hhead .identifier role nofun)
  have hend : nameStep .identifier .scopedIdentifier role origin
      (origin.past path.text gap rest [node]) = none := name_step_none (hrest.head_ne (by decide))
  have hsign : atSign "::" origin = some (false, origin) :=
    at_sign_false (sign_ne (hhead.rest_eq ▸ name_head_ne hname (by decide) _))
  have hfirst := read_whole_name hhead hname hbreaks .identifier role
  refine ⟨node, ?_⟩
  unfold simplePath
  refine read_apart h (?_ : _ = some ((), draft.past path.text gap rest [node]))
  rw [← horigin, read_bind (read_mark origin), read_bind hsign]
  rw [if_neg Bool.false_ne_true, read_bind hfirst, show origin.done = [] from horigin ▸ rfl]
  exact (hrepeats.many hend (hhead.past_bound _)).trans (horigin ▸ rfl)

/-- Behind the path of a macro stands an exclamation mark. -/
theorem macro_invocation_none {path : PathTerm} (hpath : path.IsSpelled)
    (h : draft.Stands path.text gap rest) (hrest : EndsPath rest) (role : Option Role) :
    macroInvocation sub role draft = none := by
  obtain ⟨node, hread⟩ := read_simple_path hpath (h.with_done []) hrest (some .macroPath)
  refine branch_none _ _ h.pending ?_
  rw [read_bind hread]
  exact read_bind_none (sign_none (sign_ne (hrest.head_ne (by decide))))

/-! ## Paths of types -/

/-- A name is read as a primitive type if it is the name of one. -/
theorem primitive_in_front (hname : IsWholeName name) (hbreaks : Breaks rest) :
    primitive? (name ++ rest) = if name ∈ primitiveNames then some name.length else none := by
  have hspelled : ∀ word ∈ primitiveNames, (∀ c ∈ word, isNameNext c = true) ∧ 2 ≤ word.length := by
    decide
  have hsame : ∀ word ∈ primitiveNames,
      beginsWithWord word (name ++ rest) = decide (word = name) := fun word hword =>
    hname.begins_with_word hbreaks (hspelled word hword).1 (hspelled word hword).2
  rw [primitive?, List.find?_congr hsame]
  split
  · rename_i hmem
    have hfound : (primitiveNames.find? fun word => decide (word = name)).isSome = true :=
      List.find?_isSome.2 ⟨name, hmem, decide_eq_true rfl⟩
    obtain ⟨word, hword⟩ := Option.isSome_iff_exists.1 hfound
    have heq : word = name := by simpa using List.find?_some hword
    rw [hword, heq]
    rfl
  · rename_i hmem
    rw [List.find?_eq_none.2 fun word hword => by
      simpa using fun heq : word = name => hmem (heq ▸ hword)]
    rfl

/-- The first name of a path is read as a primitive type or a type. -/
theorem read_path_head (sub : SubReader) (h : draft.Stands name gap rest) (hname : IsWholeName name)
    (hbreaks : Breaks rest) : ∃ node,
      pathHead sub draft = some ((), draft.past name gap rest (node :: draft.done)) ∧
      IsPathNode node name ∧
      node.kind = if name ∈ primitiveNames then .primitiveType else .typeIdentifier := by
  have hprimitive : primitive? draft.rest = _ :=
    h.rest_eq ▸ primitive_in_front hname (breaks_append h.gap fun _ => hbreaks)
  have hfront : sees "<" draft = some (false, draft) :=
    sees_false (not_begins (h.rest_eq ▸ name_head_ne hname (by decide) _))
  have hsign : atSign "::" draft = some (false, draft) :=
    at_sign_false (sign_ne (h.rest_eq ▸ name_head_ne hname (by decide) _))
  rw [pathHead, read_if_false hfront, read_if_false hsign]
  split
  · rename_i hmem
    rw [if_pos hmem] at hprimitive
    exact ⟨_, or_else_some (read_lexeme h hprimitive), is_path_leaf h .primitiveType none nofun, rfl⟩
  · rename_i hmem
    rw [if_neg hmem] at hprimitive
    rw [or_else_none (lexeme_none hprimitive)]
    exact ⟨_, read_whole_name h hname hbreaks .typeIdentifier none,
      is_path_leaf h .typeIdentifier none nofun, rfl⟩

theorem set_role_some (role : Role) (draft : Draft) :
    ∃ done, setRole role draft = some ((), { draft with done := done }) := by
  unfold setRole
  split
  · exact ⟨_, rfl⟩
  · exact ⟨draft.done, rfl⟩

/-- In front of a name stand no type arguments. -/
theorem inner_arguments_none {origin : Draft} {behind : List Char}
    (h : draft.Stands "::".toList gap (name ++ behind)) (hname : IsWholeName name) :
    innerArguments sub origin draft = none := by
  obtain ⟨done, hrole⟩ := set_role_some .type draft
  obtain ⟨mark, hsign, _⟩ := read_sign (h.with_done done) (h.rest_eq ▸ rfl)
  rw [innerArguments, read_bind hrole, read_bind hsign]
  exact read_bind_none <| branch_none _ _ rfl <| read_bind_none <| token_none <|
    not_begins (name_head_ne hname (by decide) _)

/-- Behind a double colon a path goes on with a name. -/
theorem path_step_at_name {origin : Draft} {behind : List Char}
    (h : draft.Stands "::".toList gap (name ++ behind)) (hname : IsWholeName name) :
    pathStep sub origin draft =
      nameStep .typeIdentifier .scopedTypeIdentifier none origin draft := by
  rw [pathStep, read_if_true (at_sign_true (h.rest_eq ▸ rfl)),
    or_else_none (inner_arguments_none h hname)]
  rfl

/-- A path does not go on in front of what ends a type. -/
theorem path_step_none {origin : Draft} (h : Closes draft.rest) :
    pathStep sub origin draft = none := by
  have hlast : lastKind draft = some (draft.done.head?.map (·.kind), draft) := rfl
  have hbracket : sees "<" draft = some (false, draft) :=
    sees_false (not_begins (h.head_ne (by decide)))
  have hparen : sees "(" draft = some (false, draft) :=
    sees_false (not_begins (h.head_ne (by decide)))
  rw [pathStep, read_if_false (at_sign_false (sign_ne (h.head_ne (by decide)))), read_bind hlast]
  dsimp only
  split
  · exact read_bind_none rfl
  · rw [read_if_false hbracket, read_if_false hparen]
    rfl

/-- The names of a path are read as one node, to the end of the path. -/
theorem read_type_names (sub : SubReader) {path : PathTerm} {origin : Draft} (hpath : path.IsWritten)
    (h : origin.Stands path.text gap rest) (hdone : origin.done = []) (hrest : EndsPath rest) :
    ∃ first node, pathHead sub origin = some ((), first) ∧ first.rest.length ≤ first.bound ∧
      Repeats (pathStep sub origin) first (origin.past path.text gap rest [node]) ∧
      IsPathNode node path.text ∧
      (node.kind = .typeIdentifier ∨ node.kind = .scopedTypeIdentifier) := by
  have hstep : ∀ draft gap name behind, Draft.Stands draft "::".toList gap (name ++ behind) →
      IsWholeName name → pathStep sub origin draft =
        nameStep .typeIdentifier .scopedTypeIdentifier none origin draft :=
    fun _ _ _ _ hstands hname => path_step_at_name hstands hname
  obtain ⟨gap', rest', hhead, hbreaks, hrepeats⟩ := names_repeat .typeIdentifier
    .scopedTypeIdentifier none hpath.toIsSpelled hstep nofun nofun h hrest.breaks
  obtain ⟨front, hread, hfront, hkind⟩ :=
    read_path_head sub hhead (head_is_name hpath.toIsSpelled) hbreaks
  obtain ⟨node, hsteps, hnode, hcases⟩ := hrepeats front hfront
  rw [hdone] at hread
  refine ⟨_, node, hread, hhead.past_bound _, hsteps, hnode, ?_⟩
  rcases hcases with ⟨hsingle, rfl⟩ | ⟨_, hwhole⟩
  · have hword : path.head ∉ primitiveNames := by
      rw [PathTerm.head, hsingle]
      exact hpath.single hsingle
    exact .inl (hkind.trans (if_neg hword))
  · exact .inr hwhole

end Grammar

end ProgramInterface
