import Mathlib.Data.List.Infix
import ProgramInterface.Grammar.Draft
import ProgramInterface.Proofs.Grammar.Words

/-!
# Readers in front of a known text

`Draft.Stands` says that a draft stands in front of a text with white space behind it, and `Draft.past`
is the draft behind both. The lemmas about readers tell how one of them gets from the first to the
second, and which node it builds of the text on its way.
-/

namespace ProgramInterface

/-- Whether a node stands for a sign or a word. -/
structure Node.IsToken (node : Node) : Prop where
  kind : node.kind = .token
  unnamed : node.isNamed = false
  children : node.children = []

namespace Draft

/-! ## Numbers of bytes -/

theorem byte_size_cons (c : Char) (text : List Char) :
    byteSize (c :: text) = c.utf8Size + byteSize text := by
  have hfrom (text : List Char) (n : Nat) :
      text.foldl (fun n c => n + c.utf8Size) n = n + byteSize text := by
    induction text generalizing n with
    | nil => rfl
    | cons c rest ih =>
        rw [byteSize, List.foldl_cons, List.foldl_cons, ih, ih (0 + c.utf8Size), Nat.zero_add,
          Nat.add_assoc]
  rw [byteSize, List.foldl_cons, hfrom, Nat.zero_add]

theorem byte_size_append (front back : List Char) :
    byteSize (front ++ back) = byteSize front + byteSize back := by
  induction front with
  | nil => exact (Nat.zero_add _).symm
  | cons c rest ih => rw [List.cons_append, byte_size_cons, ih, byte_size_cons, Nat.add_assoc]

theorem take_bytes (taken text behind : List Char) :
    takeBytes (byteSize text) taken (text ++ behind) = taken.reverse ++ text := by
  induction text generalizing taken with
  | nil =>
      rw [List.append_nil, List.nil_append]
      cases behind with
      | nil => rfl
      | cons => rfl
  | cons c rest ih =>
      have hpos : byteSize (c :: rest) ≠ 0 := by
        have := c.utf8Size_pos
        rw [byte_size_cons]
        omega
      rw [List.cons_append, takeBytes, if_neg hpos, byte_size_cons, Nat.add_sub_cancel_left, ih,
        List.reverse_cons, List.append_assoc]
      rfl

/-! ## Standing in front of a text -/

/-- Whether neither white space nor a comment begins a text. -/
def Stops (rest : List Char) : Prop :=
  ∀ c ∈ rest.head?, Lexical.isGap c = false ∧ c ≠ '/'

theorem stops_of_next {c : Char} {rest : List Char} (h : isNameNext c = true) : Stops (c :: rest) := by
  intro d hd
  cases hd
  refine ⟨?_, fun hslash => absurd (hslash ▸ h) (by decide)⟩
  rw [Bool.eq_false_iff]
  intro hgap
  have hbreaks := (Lexical.gap_breaks hgap).1
  rw [Lexical.breaksWord, h] at hbreaks
  exact absurd hbreaks (by simp)

/-- Whether a draft stands in front of a text, white space behind it, and a rest. -/
structure Stands (draft : Draft) (text gap rest : List Char) : Prop where
  rest_eq : draft.rest = text ++ (gap ++ rest)
  pending : draft.pending = []
  bound : draft.rest.length < draft.bound
  gap : Lexical.IsBlank gap
  stops : Stops rest

/-- The draft behind a text and the white space behind that. -/
def past (draft : Draft) (text gap rest : List Char) (done : List Node) : Draft :=
  ⟨rest, draft.offset + byteSize text + byteSize gap, draft.offset + byteSize text, [], done,
    draft.bound⟩

@[simp]
theorem past_done (draft : Draft) (text gap rest : List Char) (done : List Node) :
    (draft.past text gap rest done).done = done :=
  rfl

/-- The node for a text that a draft stands in front of. -/
def node (draft : Draft) (kind : Kind) (role : Option Role) (text : List Char)
    (children : List Node) : Node :=
  ⟨kind, true, role, draft.offset, draft.offset + byteSize text, String.ofList text, children⟩

/-- What stands behind a draft past a text is the rest. -/
theorem Stands.next {draft : Draft} {text gap next gap' rest : List Char}
    (h : draft.Stands text gap (next ++ (gap' ++ rest))) (hgap : Lexical.IsBlank gap')
    (hstops : Stops rest) (done : List Node) :
    (draft.past text gap (next ++ (gap' ++ rest)) done).Stands next gap' rest where
  rest_eq := rfl
  pending := rfl
  bound := by
    refine Nat.lt_of_le_of_lt ?_ h.bound
    rw [h.rest_eq]
    exact List.IsSuffix.length_le ⟨text ++ gap, List.append_assoc ..⟩
  gap := hgap
  stops := hstops

/-- Past a second text is past both. -/
theorem past_past (draft : Draft) (text gap next gap' middle rest : List Char)
    (before done : List Node) :
    (draft.past text gap middle before).past next gap' rest done =
      draft.past (text ++ gap ++ next) gap' rest done := by
  simp [past, byte_size_append, Nat.add_assoc]

/-- What a draft stands in front of may be cut elsewhere. -/
theorem Stands.cut {draft : Draft} {text gap rest text' gap' rest' : List Char}
    (h : draft.Stands text gap rest) (heq : text ++ (gap ++ rest) = text' ++ (gap' ++ rest'))
    (hgap : Lexical.IsBlank gap') (hstops : Stops rest') : draft.Stands text' gap' rest' where
  rest_eq := h.rest_eq.trans heq
  pending := h.pending
  bound := h.bound
  gap := hgap
  stops := hstops

theorem Stands.with_done {draft : Draft} {text gap rest : List Char} (h : draft.Stands text gap rest)
    (done : List Node) : ({ draft with done := done } : Draft).Stands text gap rest :=
  ⟨h.rest_eq, h.pending, h.bound, h.gap, h.stops⟩

theorem Stands.past_bound {draft : Draft} {text gap rest : List Char} (h : draft.Stands text gap rest)
    (done : List Node) : rest.length ≤ (draft.past text gap rest done).bound := by
  have hbound := h.bound
  rw [h.rest_eq, List.length_append, List.length_append] at hbound
  simp only [past]
  omega

/-! ## White space -/

theorem skip_gap_from {draft : Draft} {gap rest : List Char} {fuel : Nat}
    (hrest : draft.rest = gap ++ rest) (hgap : Lexical.IsBlank gap) (hstops : Stops rest)
    (hfuel : gap.length ≤ fuel) :
    skipGapFrom fuel draft =
      { draft with rest := rest, offset := draft.offset + byteSize gap } := by
  induction gap generalizing draft fuel with
  | nil =>
      have hsame : skipGapFrom fuel draft = draft := by
        cases fuel with
        | zero => rfl
        | succ fuel =>
            rw [skipGapFrom]
            split
            · rfl
            · rename_i c tail hcons
              have hc := hstops c (by rw [← hrest.trans (List.nil_append rest), hcons]; rfl)
              -- A comment begins with a stroke, and what stops the gap does not.
              have hcomment : Lexical.comment? draft.rest = none := by
                rw [hcons, Lexical.comment?.eq_def]
                split
                · exact absurd (List.cons.inj ‹_›).1 hc.2
                · exact absurd (List.cons.inj ‹_›).1 hc.2
                · rfl
              rw [if_neg (by simp [hc.1]), hcomment]
      rw [hsame, ← hrest.trans (List.nil_append rest)]
      rfl
  | cons c gap ih =>
      cases fuel with
      | zero => exact absurd hfuel (by simp)
      | succ fuel =>
          have hc : Lexical.isGap c = true := hgap c (List.mem_cons_self ..)
          rw [skipGapFrom, hrest, List.cons_append]
          dsimp only
          rw [if_pos hc, ih rfl (fun d hd => hgap d (List.mem_cons_of_mem _ hd))
            (Nat.le_of_succ_le_succ hfuel), byte_size_cons, Nat.add_assoc]

/-! ## Leaves -/

theorem flush_eq {draft : Draft} (h : draft.pending = []) : draft.flush = draft := by
  cases draft
  cases h
  rfl

theorem Stands.leaf_eq {draft : Draft} {text gap rest : List Char} (h : draft.Stands text gap rest)
    (kind : Kind) (isNamed : Bool) (role : Option Role) :
    draft.leaf kind isNamed role text.length = ⟨kind, isNamed, role, draft.offset,
      draft.offset + byteSize text, String.ofList text, []⟩ := by
  rw [leaf, h.rest_eq, List.take_left]

/-- A leaf takes the text and skips the white space behind it. -/
theorem Stands.push {draft : Draft} {text gap rest : List Char} (h : draft.Stands text gap rest)
    (kind : Kind) (isNamed : Bool) (role : Option Role) :
    draft.push kind isNamed role text.length =
      draft.past text gap rest (draft.leaf kind isNamed role text.length :: draft.done) := by
  have hdrop : draft.rest.drop text.length = gap ++ rest := by rw [h.rest_eq, List.drop_left]
  have hfuel : gap.length ≤ draft.bound := by
    have := h.bound
    rw [h.rest_eq, List.length_append, List.length_append] at this
    omega
  rw [Draft.push, flush_eq h.pending]
  refine (skip_gap_from hdrop h.gap h.stops hfuel).trans ?_
  rw [h.leaf_eq, past]
  simp only [after, h.pending]

end Draft

/-! ## Readers -/

namespace Reader

variable {α β : Type} {draft after : Draft} {text gap rest : List Char}

theorem read_bind {reader : Reader α} {next : α → Reader β} {a : α}
    (h : reader draft = some (a, after)) : (reader >>= next) draft = next a after := by
  show (reader draft).bind (fun p => next p.1 p.2) = _
  rw [h]
  rfl

theorem read_bind_none {reader : Reader α} {next : α → Reader β} (h : reader draft = none) :
    (reader >>= next) draft = none := by
  show (reader draft).bind (fun p => next p.1 p.2) = _
  rw [h]
  rfl

theorem or_else_some {first second : Reader α} {a : α} (h : first draft = some (a, after)) :
    orElse first second draft = some (a, after) := by
  rw [orElse, h]

theorem or_else_none {first second : Reader α} (h : first draft = none) :
    orElse first second draft = second draft := by
  rw [orElse, h]

theorem optional_none {reader : Reader Unit} (h : reader draft = none) :
    optional reader draft = some ((), draft) := by
  rw [optional, h]

theorem optional_some {reader : Reader Unit} (h : reader draft = some ((), after)) :
    optional reader draft = some ((), after) := by
  rw [optional, h]

/-! ### Tests -/

theorem read_mark (draft : Draft) : mark draft = some (draft, draft) :=
  rfl

theorem read_rest (draft : Draft) : Reader.rest draft = some (draft.rest, draft) :=
  rfl

theorem read_if_true {test : Reader Bool} {first second : Reader α}
    (h : test draft = some (true, after)) :
    (test >>= fun found => if found = true then first else second) draft = first after :=
  read_bind h

theorem read_if_false {test : Reader Bool} {first second : Reader α}
    (h : test draft = some (false, after)) :
    (test >>= fun found => if found = true then first else second) draft = second after :=
  read_bind h

theorem not_begins {c : Char} {tail text : List Char} (h : text.head? ≠ some c) :
    ¬ c :: tail <+: text := by
  rintro ⟨behind, rfl⟩
  exact h rfl

theorem sees_true {text : String} (h : text.toList <+: draft.rest) :
    sees text draft = some (true, draft) := by
  rw [sees, List.isPrefixOf_iff_prefix.2 h]

theorem sees_false {text : String} (h : ¬ text.toList <+: draft.rest) :
    sees text draft = some (false, draft) := by
  rw [sees, Bool.eq_false_iff.2 fun hbegins => h (List.isPrefixOf_iff_prefix.1 hbegins)]

theorem at_sign_true {text : String} (h : Lexical.sign draft.rest = text.toList) :
    atSign text draft = some (true, draft) := by
  rw [atSign, h, beq_self_eq_true]

theorem at_sign_false {text : String} (h : Lexical.sign draft.rest ≠ text.toList) :
    atSign text draft = some (false, draft) := by
  rw [atSign, beq_eq_false_iff_ne.2 h]

theorem at_word_false {text : String}
    (h : Lexical.beginsWithWord text.toList draft.rest = false) :
    atWord text draft = some (false, draft) := by
  rw [atWord, h]

/-! ### Leaves -/

/-- A sign or word is read as a node without a name. -/
theorem push_token {sign : String} (h : draft.Stands sign.toList gap rest) :
    ∃ mark : Node, draft.push .token false none sign.toList.length =
      draft.past sign.toList gap rest (mark :: draft.done) ∧ mark.IsToken :=
  ⟨_, h.push .token false none, rfl, rfl, rfl⟩

theorem read_token {sign : String} (h : draft.Stands sign.toList gap rest) :
    ∃ mark : Node, token sign draft =
      some ((), draft.past sign.toList gap rest (mark :: draft.done)) ∧ mark.IsToken := by
  have hbegins : sign.toList.isPrefixOf draft.rest = true :=
    List.isPrefixOf_iff_prefix.2 (h.rest_eq ▸ List.prefix_append ..)
  obtain ⟨mark, hpush, hmark⟩ := push_token h
  exact ⟨mark, by rw [token, if_pos hbegins, hpush], hmark⟩

theorem token_none {sign : String} (h : ¬ sign.toList <+: draft.rest) : token sign draft = none :=
  if_neg fun hbegins => h (List.isPrefixOf_iff_prefix.1 hbegins)

theorem read_sign {text : String} (h : draft.Stands text.toList gap rest)
    (hsign : Lexical.sign draft.rest = text.toList) :
    ∃ mark : Node, sign text draft =
      some ((), draft.past text.toList gap rest (mark :: draft.done)) ∧ mark.IsToken := by
  obtain ⟨mark, hpush, hmark⟩ := push_token h
  exact ⟨mark, by rw [sign, if_pos hsign, hpush], hmark⟩

theorem sign_none {text : String} (h : Lexical.sign draft.rest ≠ text.toList) :
    sign text draft = none :=
  if_neg h

theorem read_word {text : String} (h : draft.Stands text.toList gap rest)
    (hword : Lexical.beginsWithWord text.toList draft.rest = true) :
    ∃ mark : Node, word text draft =
      some ((), draft.past text.toList gap rest (mark :: draft.done)) ∧ mark.IsToken := by
  obtain ⟨mark, hpush, hmark⟩ := push_token h
  exact ⟨mark, by rw [word, if_pos hword, hpush], hmark⟩

theorem word_none {text : String} (h : Lexical.beginsWithWord text.toList draft.rest = false) :
    word text draft = none :=
  if_neg (by simp [h])

theorem read_lexeme {kind : Kind} {role : Option Role} {length? : List Char → Option Nat}
    (h : draft.Stands text gap rest) (hlength : length? draft.rest = some text.length) :
    lexeme kind role length? draft = some ((), draft.past text gap rest
      (draft.leaf kind true role text.length :: draft.done)) := by
  rw [lexeme, hlength]
  exact congrArg (fun next => some ((), next)) (h.push ..)

theorem lexeme_none {kind : Kind} {role : Option Role} {length? : List Char → Option Nat}
    (hlength : length? draft.rest = none) : lexeme kind role length? draft = none := by
  rw [lexeme, hlength]

/-! ### Nodes with children -/

theorem read_apart {reader : Reader α} {a : α} {done : List Node} (h : draft.Stands text gap rest)
    (hread : reader { draft with done := [] } = some (a, draft.past text gap rest done)) :
    apart reader draft = some (a, draft.past text gap rest (done ++ draft.done)) := by
  rw [apart, Draft.flush_eq h.pending, hread]
  rfl

theorem apart_none {reader : Reader α} (hpending : draft.pending = [])
    (h : reader { draft with done := [] } = none) : apart reader draft = none := by
  rw [apart, Draft.flush_eq hpending, h]

/-- What was built since the beginning of a text becomes the children of a node with that text. -/
theorem read_fold (h : draft.Stands text gap rest) (kind : Kind) (role : Option Role)
    (done : List Node) :
    fold draft kind role (draft.past text gap rest done) =
      some ((), draft.past text gap rest [draft.node kind role text done.reverse]) := by
  have htext : draft.textTo (draft.offset + Draft.byteSize text) = String.ofList text := by
    rw [Draft.textTo, Nat.add_sub_cancel_left, h.rest_eq, Draft.take_bytes]
    rfl
  rw [fold]
  simp only [Draft.past, Draft.node, htext]

theorem read_branch {reader : Reader Unit} {done : List Node} (h : draft.Stands text gap rest)
    (kind : Kind) (role : Option Role)
    (hread : reader { draft with done := [] } = some ((), draft.past text gap rest done)) :
    branch kind role reader draft = some ((), draft.past text gap rest
      (draft.node kind role text done.reverse :: draft.done)) := by
  have hinner : (do let origin ← mark; reader; fold origin kind role) { draft with done := [] } =
      fold { draft with done := [] } kind role (draft.past text gap rest done) := by
    rw [read_bind (read_mark _), read_bind hread]
  exact read_apart h (hinner.trans (read_fold (h.with_done []) kind role done))

theorem branch_none {reader : Reader Unit} (kind : Kind) (role : Option Role)
    (hpending : draft.pending = []) (hread : reader { draft with done := [] } = none) :
    branch kind role reader draft = none := by
  have hinner : (do let origin ← mark; reader; fold origin kind role) { draft with done := [] } =
      none := by
    rw [read_bind (read_mark _), read_bind_none hread]
  rw [branch, apart_none hpending hinner]

/-! ### Repetitions -/

/-- Whether a reader gets from one draft to another by reading again and again. -/
inductive Repeats (reader : Reader Unit) : Draft → Draft → Prop where
  | stop (draft : Draft) : Repeats reader draft draft
  | step {draft next last : Draft} (hread : reader draft = some ((), next))
      (hless : next.rest.length < draft.rest.length) (hrest : Repeats reader next last) :
      Repeats reader draft last

theorem Repeats.trans {reader : Reader Unit} {draft next last : Draft}
    (h : Repeats reader draft next) (hrest : Repeats reader next last) :
    Repeats reader draft last := by
  induction h with
  | stop => exact hrest
  | step hread hless _ ih => exact .step hread hless (ih hrest)

theorem Repeats.many_from {reader : Reader Unit} {draft last : Draft} {fuel : Nat}
    (h : Repeats reader draft last) (hend : reader last = none) (hfuel : draft.rest.length ≤ fuel) :
    manyFrom reader fuel draft = last := by
  induction h generalizing fuel with
  | stop draft =>
      cases fuel with
      | zero => rfl
      | succ fuel => rw [manyFrom, hend]
  | @step draft next last hread hless _ ih =>
      cases fuel with
      | zero => exact absurd hfuel (by omega)
      | succ fuel =>
          rw [manyFrom, hread]
          exact ih hend (by omega)

/-- A reader that refuses in the end is repeated as often as it can be. -/
theorem Repeats.many {reader : Reader Unit} {last : Draft} (h : Repeats reader draft last)
    (hend : reader last = none) (hbound : draft.rest.length ≤ draft.bound) :
    Reader.many reader draft = some ((), last) := by
  rw [Reader.many, h.many_from hend hbound]

theorem many_none {reader : Reader Unit} (hend : reader draft = none) :
    many reader draft = some ((), draft) := by
  rw [many]
  cases draft.bound with
  | zero => rfl
  | succ fuel => rw [manyFrom, hend]

/-- Whether a reader that tells whether to go on gets from one draft to another by reading until it
tells not to. -/
inductive Loops (reader : Reader Bool) : Draft → Draft → Prop where
  | stop {draft last : Draft} (hread : reader draft = some (false, last)) : Loops reader draft last
  | step {draft next last : Draft} (hread : reader draft = some (true, next))
      (hless : next.rest.length < draft.rest.length) (hrest : Loops reader next last) :
      Loops reader draft last

theorem Loops.while_true_from {reader : Reader Bool} {last : Draft} {fuel : Nat}
    (h : Loops reader draft last) (hfuel : draft.rest.length < fuel) :
    whileTrueFrom reader fuel draft = some ((), last) := by
  induction h generalizing fuel with
  | stop hread =>
      cases fuel with
      | zero => exact absurd hfuel (by omega)
      | succ fuel => rw [whileTrueFrom, hread]
  | step hread hless _ ih =>
      cases fuel with
      | zero => exact absurd hfuel (by omega)
      | succ fuel =>
          rw [whileTrueFrom, hread]
          exact ih (by omega)

/-- A reader that tells not to go on in the end is repeated until then. -/
theorem Loops.while_true {reader : Reader Bool} {last : Draft} (h : Loops reader draft last)
    (hbound : draft.rest.length < draft.bound) : whileTrue reader draft = some ((), last) :=
  h.while_true_from hbound

end Reader

end ProgramInterface
