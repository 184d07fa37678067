import ProgramInterface.Proofs.Yaml.Token
import ProgramInterface.Yaml.Writer

/-!
# Reading block mappings

The ways in which the members of a mapping can be spelled, each on a line of its own and the members
of an inner mapping moved in (`BlockSpelled`), and the tokens that are read from each of them
(`read_tokens_spelled`).
-/

namespace ProgramInterface

namespace Yaml

/-- The content of a value that is written as a scalar, and whether it is written without quotes. -/
def Output.scalar? : Output → Option (Text × Bool)
  | null => some ("null", true)
  | bool value => some (if value then "true" else "false", true)
  | int value => some (Text.ofInt value, true)
  | text value => some (value, style value = .plain)
  | mapping _ => none

theorem Output.style_eq_plain_iff {t : Text} :
    style t = .plain ↔ implicitTag t = .str ∧ allowsPlain t = true := by
  unfold style
  split
  · exact iff_of_true rfl ‹_›
  · refine iff_of_false ?_ ‹_›
    split <;> nofun

mutual

/-- The tokens of a value. -/
def Output.tokens : Output → List Token
  | .mapping members => .blockMappingStart :: (memberTokens members ++ [.blockEnd])
  | .null => [.scalar "null" true]
  | .bool value => [.scalar (if value then "true" else "false") true]
  | .int value => [.scalar (Text.ofInt value) true]
  | .text value => [.scalar value (Output.style value = .plain)]

/-- The tokens of some members. -/
def memberTokens : List (Text × Output) → List Token
  | [] => []
  | (name, value) :: rest =>
    .key :: .scalar name true :: .value :: (value.tokens ++ memberTokens rest)

end

theorem tokens_of_scalar {v : Output} {content : Text} {isPlain : Bool}
    (h : v.scalar? = some (content, isPlain)) : v.tokens = [.scalar content isPlain] := by
  cases v <;> cases h <;> rfl

/-- The scalars that can be read again; a number must not be negative nor have too many digits. -/
inductive Output.IsScalar : Output → Prop
  | null : IsScalar .null
  | bool (value : Bool) : IsScalar (.bool value)
  | int (n : Nat) (h : IntegerText.fits (n : Int) = true) : IsScalar (.int n)
  | text (value : Text) : IsScalar (.text value)

/-- A name that is read as itself and that the members behind it do not have. -/
structure IsMemberName (name : List Char) (rest : List (Text × Output)) : Prop where
  letters : Scanner.IsName name
  tag : implicitTag (Text.ofChars name) = .str
  new : ∀ member ∈ rest, member.1 ≠ Text.ofChars name

/-- The members that can be written at a level of nesting and read again. Lines that are moved in too far
have no room for a text. -/
inductive Writable : Nat → List (Text × Output) → Prop
  | nil {level : Nat} : Writable level []
  | scalar {level : Nat} {name : List Char} {v : Output} {members : List (Text × Output)}
      (hname : IsMemberName name members) (hv : v.IsScalar)
      (hlevel : 2 * (level + 1) < Output.bestWidth) (h : Writable level members) :
      Writable level ((Text.ofChars name, v) :: members)
  | mapping {level : Nat} {name : List Char} {inner members : List (Text × Output)}
      (hname : IsMemberName name members) (hne : inner ≠ []) (hinner : Writable (level + 1) inner)
      (h : Writable level members) :
      Writable level ((Text.ofChars name, .mapping inner) :: members)

/-! ## Spelling -/

/-- The ways of spelling a scalar. -/
inductive ScalarSpelled (indent : Nat) : Text → Bool → List Char → Prop
  | plain {content w : List Char} (h : PlainSpelled indent content w)
      (hstart : Scanner.startsPlain content = true) :
      ScalarSpelled indent (Text.ofChars content) true w
  | quoted {double : Bool} {content : Text} {w : List Char} (h : Spelled double indent content w) :
      ScalarSpelled indent content false (quoteOf double :: (w ++ [quoteOf double]))

/-- The ways of spelling the members of a mapping at a level of nesting. -/
inductive BlockSpelled : Nat → List (Text × Output) → List Char → Prop
  | nil {level : Nat} : BlockSpelled level [] []
  | scalar {level : Nat} {name w others : List Char} {v : Output} {content : Text} {isPlain : Bool}
      {members : List (Text × Output)} (hname : Scanner.IsName name)
      (hv : v.scalar? = some (content, isPlain))
      (hw : ScalarSpelled (2 * (level + 1)) content isPlain w)
      (h : BlockSpelled level members others) :
      BlockSpelled level ((Text.ofChars name, v) :: members)
        ('\n' :: (spaces (2 * level) ++ (name ++ ':' :: ' ' :: (w ++ others))))
  | mapping {level : Nat} {name w others : List Char} {inner members : List (Text × Output)}
      (hname : Scanner.IsName name) (hne : inner ≠ []) (hinner : BlockSpelled (level + 1) inner w)
      (h : BlockSpelled level members others) :
      BlockSpelled level ((Text.ofChars name, .mapping inner) :: members)
        ('\n' :: (spaces (2 * level) ++ (name ++ ':' :: (w ++ others))))

open Scanner

variable {level next : Nat} {members : List (Text × Output)} {w text rest : List Char}

/-! ## Line ends -/

theorem head_key_of_name {name : List Char} (h : IsName name) (rest : List Char) :
    (name ++ rest).head?.all isKeyChar = true := by
  obtain ⟨c, name, rfl⟩ := List.exists_cons_of_ne_nil h.ne_nil
  exact h.key c (List.mem_cons_self ..)

/-- The spaces that a line is moved in by are all spaces in front of its key. -/
theorem line_break_unique {other : Nat} {others : List Char} (h : IsLineBreak level text rest)
    (hother : IsLineBreak other text others) : level = other ∧ rest = others := by
  have hspace : ∀ {n : Nat} {key after : List Char}, key.head?.all isKeyChar = true →
      key = spaces n ++ ' ' :: after → False := by
    rintro (_ | n) key after hkey rfl <;> cases hkey
  have hspaces : ∀ {m n : Nat}, spaces m ++ rest = spaces n ++ others → m = n ∧ rest = others := by
    intro m n heq
    induction m generalizing n with
    | zero =>
        cases n with
        | zero => exact ⟨rfl, heq⟩
        | succ n => exact (hspace (n := 0) h.key heq).elim
    | succ m ih =>
        cases n with
        | zero => exact (hspace (n := 0) hother.key heq.symm).elim
        | succ n =>
            obtain ⟨rfl, hrest⟩ := ih (List.tail_eq_of_cons_eq heq)
            exact ⟨rfl, hrest⟩
  have heq := List.tail_eq_of_cons_eq (h.text_eq.symm.trans hother.text_eq)
  obtain ⟨hcolumn, hrest⟩ := hspaces heq
  exact ⟨by omega, hrest⟩

theorem line_break_member {name : List Char} (h : IsName name) (after text : List Char) :
    IsLineBreak level ('\n' :: (spaces (2 * level) ++ (name ++ after)) ++ text)
      (name ++ (after ++ text)) :=
  ⟨by simp, head_key_of_name h _⟩

/-- What follows a value begins with a line end. -/
theorem BlockSpelled.line_break (h : BlockSpelled level members w)
    (htext : IsLineBreak next text rest) (hnext : next ≤ level) :
    ∃ line others, line ≤ level ∧ IsLineBreak line (w ++ text) others := by
  cases h with
  | nil => exact ⟨next, rest, hnext, htext⟩
  | scalar hname => exact ⟨level, _, Nat.le_refl _, line_break_member hname _ text⟩
  | mapping hname => exact ⟨level, _, Nat.le_refl _, line_break_member hname _ text⟩

theorem BlockSpelled.line_break_of_ne_nil (h : BlockSpelled level members w) (hne : members ≠ [])
    (text : List Char) : ∃ others, IsLineBreak level (w ++ text) others := by
  cases h with
  | nil => contradiction
  | scalar hname => exact ⟨_, line_break_member hname _ text⟩
  | mapping hname => exact ⟨_, line_break_member hname _ text⟩

/-! ## Reading -/

theorem ScalarSpelled.starts_visible {indent : Nat} {content : Text} {isPlain : Bool}
    (h : ScalarSpelled indent content isPlain w) (rest : List Char) :
    startsVisible (w ++ rest) = true ∧ (w ++ rest).head? ≠ some '#' := by
  cases h with
  | plain h =>
      exact h.starts_visible rest
  | @quoted double =>
      cases double <;> exact ⟨rfl, by simp [quoteOf]⟩

/-- The value of a member that is a scalar is read. -/
theorem Reaches.scalar {content : Text} {isPlain : Bool} {place : Place} (tokens : List Token)
    (h : ScalarSpelled (2 * (level + 1)) content isPlain w) (htext : IsLineBreak next text rest)
    (hnext : next ≤ level) (hplace : place.rest = w ++ text) (hcolumn : 2 * level < place.column) :
    ∃ behind, LineStart next text behind ∧
      Reaches (inBlock (level + 1) false place tokens)
        (inBlock (level + 1) true behind (.scalar content isPlain :: tokens)) := by
  cases h with
  | plain h hstart => exact Reaches.plain h hstart htext hnext hplace hcolumn
  | quoted h => exact Reaches.quoted h htext (by simpa using hplace) hcolumn

section
variable {name : List Char} {place : Place} (isFirst : Bool) (tokens : List Token)

/-- A member whose value is a scalar is read. -/
theorem Reaches.scalar_member {content : Text} {isPlain : Bool} (hname : IsName name)
    (h : ScalarSpelled (2 * (level + 1)) content isPlain w) (htext : IsLineBreak next text rest)
    (hnext : next ≤ level) (hplace : place.rest = name ++ ':' :: ' ' :: (w ++ text))
    (hcolumn : place.column = 2 * level) :
    ∃ behind, LineStart next text behind ∧
      Reaches (inBlock (if isFirst then level else level + 1) true place tokens)
        (inBlock (level + 1) true behind
          (.scalar content isPlain :: memberStart isFirst (Text.ofChars name) tokens)) := by
  obtain ⟨hvisible, hcomment⟩ := h.starts_visible text
  have hspace : ∀ lines, (skipToToken (lines + 2)).run
      (inBlock (level + 1) false (place.along (name.length + 1) (' ' :: (w ++ text)))
        (memberStart isFirst (Text.ofChars name) tokens)) = _ := fun lines =>
    run_skip_spaces (n := 1) hvisible hcomment rfl (lines + 1)
  have hstart := Reaches.member hname hplace rfl hcolumn hspace (by simp [inBlock])
  have hvalueColumn : 2 * level < place.column + (name.length + 1) + 1 := by omega
  have hvaluePlace : ((place.along (name.length + 1) (' ' :: (w ++ text))).along 1 (w ++ text)).rest =
      w ++ text := rfl
  obtain ⟨behind, hbehind, hvalue⟩ := Reaches.scalar (memberStart isFirst (Text.ofChars name) tokens)
    h htext hnext hvaluePlace hvalueColumn
  exact ⟨behind, hbehind, hstart.trans hvalue⟩

/-- The name of a member whose value is a mapping is read. -/
theorem Reaches.mapping_member {inner : List Char} (hname : IsName name)
    (hinner : IsLineBreak (level + 1) text inner) (hplace : place.rest = name ++ ':' :: text)
    (hcolumn : place.column = 2 * level) :
    ∃ first, LineStart (level + 1) text first ∧
      Reaches (inBlock (if isFirst then level else level + 1) true place tokens)
        (inBlock (level + 1) true first (memberStart isFirst (Text.ofChars name) tokens)) := by
  have hends : endsOrBlank text = true := by
    rw [hinner.text_eq]
    rfl
  obtain ⟨first, hfirst, hrest, hskip⟩ := run_skip_break (level + 1) false
    (memberStart isFirst (Text.ofChars name) tokens) hinner
    (rfl : (place.along (name.length + 1) text).rest = text)
  refine ⟨first, hfirst, Reaches.member hname hplace hends hcolumn hskip ?_⟩
  simp only [inBlock, hinner.text_eq, hrest, List.length_cons, List.length_append]
  omega

end

/-- The members of a mapping are read; the first one opens the mapping. -/
theorem BlockSpelled.reaches (h : BlockSpelled level members w) (isFirst : Bool)
    (hfirst : isFirst = true → members ≠ []) (htext : IsLineBreak next text rest)
    (hnext : next ≤ level) {line : Nat} {place : Place} (hplace : LineStart line (w ++ text) place)
    (tokens : List Token) :
    ∃ behind, LineStart next text behind ∧
      Reaches (inBlock (if isFirst then level else level + 1) true place tokens)
        (inBlock (level + 1) true behind ((memberTokens members).reverse ++
          if isFirst then .blockMappingStart :: tokens else tokens)) := by
  induction h generalizing isFirst next text rest line place tokens with
  | nil =>
      have hlater : isFirst = false := Bool.eq_false_iff.2 fun h => hfirst h rfl
      obtain ⟨rfl, -⟩ := line_break_unique htext hplace.toIsLineBreak
      subst hlater
      exact ⟨place, hplace, Reaches.refl _⟩
  | @scalar level name w others v content isPlain members hname hv hw h ih =>
      obtain ⟨after, _, hafter, hothers⟩ := h.line_break htext hnext
      obtain ⟨rfl, hrest⟩ := line_break_unique hplace.toIsLineBreak (line_break_member hname _ text)
      obtain ⟨value, hvalue, hmember⟩ := Reaches.scalar_member isFirst tokens
        hname hw hothers hafter (by simpa using hrest) hplace.column
      obtain ⟨behind, hbehind, hreaches⟩ := ih false nofun htext hnext hvalue
        (.scalar content isPlain :: memberStart isFirst (Text.ofChars name) tokens)
      refine ⟨behind, hbehind, ?_⟩
      simpa [memberTokens, tokens_of_scalar hv, memberStart] using hmember.trans hreaches
  | @mapping level name w others inner members hname hne hinner h ihInner ih =>
      obtain ⟨after, _, hafter, hothers⟩ := h.line_break htext hnext
      obtain ⟨rfl, hrest⟩ := line_break_unique hplace.toIsLineBreak (line_break_member hname _ text)
      -- The first inner member opens the inner mapping, and the line behind the last one closes it.
      obtain ⟨_, hinnerText⟩ := hinner.line_break_of_ne_nil hne (others ++ text)
      obtain ⟨first, hfirst, hmember⟩ := Reaches.mapping_member isFirst
        tokens hname hinnerText (by simpa using hrest) hplace.column
      obtain ⟨value, hvalue, hinnerReaches⟩ := ihInner true (fun _ => hne) hothers
        (Nat.le_succ_of_le hafter) hfirst (memberStart isFirst (Text.ofChars name) tokens)
      obtain ⟨behind, hbehind, hreaches⟩ := ih false nofun htext hnext
        hvalue (.blockEnd :: ((memberTokens inner).reverse ++
          .blockMappingStart :: memberStart isFirst (Text.ofChars name) tokens))
      refine ⟨behind, hbehind, ?_⟩
      have hclosed := hinnerReaches.trans
        (Reaches.unwound 1 hvalue.column (Nat.lt_succ_of_le hafter))
      have hall := hmember.trans (hclosed.trans hreaches)
      simpa [memberTokens, Output.tokens, memberStart] using hall

/-! ## Characters -/

theorem ScalarSpelled.written {indent : Nat} {content : Text} {isPlain : Bool}
    (h : ScalarSpelled indent content isPlain w) : ∀ c ∈ w, isWritten c = true := by
  cases h with
  | plain h => exact h.written
  | @quoted double _ _ h =>
      have hquote : isWritten (quoteOf double) = true := by cases double <;> rfl
      simp only [List.forall_mem_append, List.forall_mem_cons]
      exact ⟨hquote, h.written, hquote, List.forall_mem_nil _⟩

theorem written_name {name : List Char} (h : IsName name) : ∀ c ∈ name, isWritten c = true :=
  fun c hc => written_of_ink (h.word.ink c hc)

/-- A mapping is spelled in characters that need no escape. -/
theorem BlockSpelled.written (h : BlockSpelled level members w) : ∀ c ∈ w, isWritten c = true := by
  induction h with
  | nil => exact nofun
  | scalar hname _ hw h ih =>
      simp only [List.forall_mem_append, List.forall_mem_cons]
      exact ⟨rfl, written_spaces, written_name hname, rfl, rfl, hw.written, ih⟩
  | mapping hname _ _ h ihInner ih =>
      simp only [List.forall_mem_append, List.forall_mem_cons]
      exact ⟨rfl, written_spaces, written_name hname, rfl, ihInner, ih⟩

theorem written_bounds {c : Char} (h : isWritten c = true) :
    c = '\n' ∨ (0x20 ≤ c.toNat ∧ c.toNat ≤ 0x7E) := by
  simp only [isWritten, isInk, Bool.or_eq_true, Bool.and_eq_true, decide_eq_true_eq] at h
  obtain (⟨hleast, hmost⟩ | rfl) | rfl := h
  · have hleast : '!'.toNat ≤ c.toNat := hleast
    have hmost : c.toNat ≤ '~'.toNat := hmost
    exact .inr ⟨Nat.le_trans (by decide) hleast, hmost⟩
  · exact .inr (by decide)
  · exact .inl rfl

theorem printable_of_written {c : Char} (h : isWritten c = true) : isPrintable c = true := by
  obtain rfl | hrange := written_bounds h
  · rfl
  · simp [isPrintable, hrange]

/-! ## Whole texts -/

/-- At the end of a text its outermost mapping is closed. -/
theorem ends_at_end {place : Place} {tokens : List Token} (hplace : place.rest = [])
    (lines fuel : Nat) :
    Ends lines fuel (inBlock 1 true place tokens) (inBlock 0 true place (.blockEnd :: tokens)) := by
  have hopen : (unwindTo place.column).run (inBlock 1 true place tokens) =
      .ok ((), inBlock 1 true place tokens) :=
    run_unwind_to_stop (by simp [inBlock, columnAt])
  have hclosed : (unwindTo (-1)).run (inBlock (0 + 1) true place tokens) =
      .ok ((), inBlock 0 true place (.blockEnd :: tokens)) :=
    run_unwind_to (fun _ => by decide) (by decide)
  refine ⟨false, _, ?_, rfl⟩
  rw [run_next_token run_drop_stale hopen]
  show (nextToken.readRest place.rest).run (inBlock (0 + 1) true place tokens) = _
  rw [hplace, nextToken.readRest, StateT.run_bind, hclosed]
  rfl

/-- All tokens are read from the beginning of a mapping to its end. -/
theorem run_tokens_spelled (hkey : text.head?.all isKeyChar = true) {behind : Place}
    {tokens : List Token} (hbehind : behind.rest = [])
    (h : Reaches (inBlock 0 true (Place.start text) []) (inBlock 1 true behind tokens)) :
    (Scanner.tokens (text.length + 2) (text.length + 2)).run (inBlock 0 true (Place.start text) []) =
      .ok ((), inBlock 0 true behind (.blockEnd :: tokens)) := by
  obtain ⟨n, hlength, hends⟩ := h
  have hfuel : text.length + 1 = text.length + 1 - n + n := by
    have hlength : n + behind.rest.length ≤ text.length := hlength
    omega
  have hskip := run_skip_none (s := inBlock 0 true (Place.start text) []) (visible_of_key hkey)
    (no_comment_of_key hkey) (text.length + 1)
  refine run_tokens_of_ends hskip ?_
  rw [hfuel]
  exact hends text.length _ _ (ends_at_end hbehind _ _)

theorem read_tokens_eq (hprintable : text.all isPrintable = true)
    (hmark : text.head? ≠ some '\uFEFF') {last : Scan}
    (h : (Scanner.tokens (text.length + 2) (text.length + 2)).run
      (inBlock 0 true (Place.start text) []) = .ok ((), last)) :
    readTokens text = (last.tokens.reverse, none) := by
  have hfirst : (⟨Place.start text, 0, -1, [], true, [], [], 0⟩ : Scan) =
      inBlock 0 true (Place.start text) [] := rfl
  have hplain : ∀ tail, text = '\uFEFF' :: tail → False := fun _ htext => hmark (by rw [htext]; rfl)
  simp only [readTokens, hprintable, if_true, hfirst, h]

/-- The tokens of a mapping are read from each of its spellings; the line end in front of the first
line is left out and stands behind the last one. -/
theorem read_tokens_spelled (h : BlockSpelled 0 members ('\n' :: w)) :
    readTokens (w ++ ['\n']) = ((Output.mapping members).tokens, none) := by
  have hne : members ≠ [] := by
    rintro rfl
    cases h
  have hprintable : (w ++ ['\n']).all isPrintable = true := by
    refine List.all_eq_true.2 fun c hc => printable_of_written ?_
    have hwritten := (List.forall_mem_cons.1 h.written).2
    exact (List.mem_append.1 hc).elim (hwritten c) fun hc => List.mem_singleton.1 hc ▸ rfl
  obtain ⟨others, hothers⟩ := h.line_break_of_ne_nil hne ['\n']
  have hkey : (w ++ ['\n']).head?.all isKeyChar = true := by
    have hrest : w ++ ['\n'] = others := List.tail_eq_of_cons_eq hothers.text_eq
    exact hrest ▸ hothers.key
  have hlast : IsLineBreak 0 ['\n'] [] := ⟨rfl, rfl⟩
  have hstart : LineStart 0 ('\n' :: w ++ ['\n']) (Place.start (w ++ ['\n'])) := ⟨⟨rfl, hkey⟩, rfl⟩
  obtain ⟨behind, hbehind, hreaches⟩ := h.reaches true (fun _ => hne) hlast (Nat.le_refl _) hstart []
  have hend := (line_break_unique hbehind.toIsLineBreak hlast).2
  simp only [if_true] at hreaches
  have hmark : (w ++ ['\n']).head? ≠ some '\uFEFF' := by
    intro hhead
    rw [hhead] at hkey
    cases hkey
  rw [read_tokens_eq hprintable hmark (run_tokens_spelled hkey hend hreaches)]
  simp [inBlock, Output.tokens]

end Yaml

end ProgramInterface
