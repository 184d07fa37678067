import ProgramInterface.Proofs.Yaml.Plain
import ProgramInterface.Yaml.Token

/-!
# Reading tokens

Reading the tokens of a text goes from one state to another (`Scanner.Reaches`), token by token. The
states that matter here are those inside some block mappings, each moved in by two columns further
than the one around it (`Scanner.inBlock`).
-/

namespace ProgramInterface

namespace Yaml

theorem ok_bind {ε α β : Type} (a : α) (next : α → Except ε β) :
    (Except.ok a >>= next) = next a := rfl

namespace Scanner

/-! ## States -/

/-- The column of the innermost of some mappings inside each other. -/
def columnAt : Nat → Int
  | 0 => -1
  | depth + 1 => 2 * (depth : Int)

theorem column_at_succ (level : Nat) : columnAt (level + 1) = (2 * level : Nat) :=
  (Int.natCast_mul 2 level).symm

theorem column_at_le (level : Nat) : columnAt level ≤ (2 * level : Nat) := by
  cases level with
  | zero => decide
  | succ level =>
      rw [column_at_succ]
      omega

/-- The columns that stand behind the innermost one. -/
def columnsAround : Nat → List Int
  | 0 => []
  | depth + 1 => columnAt depth :: columnsAround depth

/-- The state inside some block mappings, without an open key. -/
def inBlock (depth : Nat) (keyAllowed : Bool) (place : Place) (tokens : List Token) : Scan :=
  ⟨place, 0, columnAt depth, columnsAround depth, keyAllowed, [], tokens, tokens.length⟩

variable {depth n : Nat} {keyAllowed : Bool} {place : Place} {tokens : List Token}

@[simp]
theorem length_columns_around : (columnsAround depth).length = depth := by
  induction depth with
  | zero => rfl
  | succ depth ih => rw [columnsAround, List.length_cons, ih]

theorem run_drop_stale : dropStale.run (inBlock depth keyAllowed place tokens) =
    .ok ((), inBlock depth keyAllowed place tokens) := rfl

/-- One block mapping is closed. -/
theorem run_unwind_succ {column : Int} (h : column < columnAt (depth + 1)) (fuel : Nat) :
    (unwind column (fuel + 1)).run (inBlock (depth + 1) keyAllowed place tokens) =
      (unwind column fuel).run (inBlock depth keyAllowed place (.blockEnd :: tokens)) := by
  have hopen : (inBlock (depth + 1) keyAllowed place tokens).flow = 0 ∧
      column < (inBlock (depth + 1) keyAllowed place tokens).indent := ⟨rfl, h⟩
  rw [unwind, StateT.run_bind, StateT.run_get]
  simp only [pure_bind, if_pos hopen]
  rfl

theorem run_unwind_stop {s : Scan} {column : Int} (h : s.indent ≤ column) (fuel : Nat) :
    (unwind column (fuel + 1)).run s = .ok ((), s) := by
  have hclosed : ¬ (s.flow = 0 ∧ column < s.indent) := fun hopen => Int.not_lt.2 h hopen.2
  rw [unwind, StateT.run_bind, StateT.run_get]
  simp only [pure_bind, if_neg hclosed]
  rfl

theorem run_unwind {column : Int} (hinner : 0 < n → column < columnAt (depth + 1))
    (houter : columnAt depth ≤ column) (fuel : Nat) :
    (unwind column (fuel + n + 1)).run (inBlock (depth + n) keyAllowed place tokens) =
      .ok ((), inBlock depth keyAllowed place (List.replicate n .blockEnd ++ tokens)) := by
  induction n generalizing tokens with
  | zero => exact run_unwind_stop houter fuel
  | succ n ih =>
      have hfirst := hinner (Nat.succ_pos n)
      have hcolumn : column < columnAt (depth + n + 1) := by
        simp only [columnAt] at hfirst ⊢
        omega
      have hclosed : (unwind column (fuel + n + 1 + 1)).run
          (inBlock (depth + n + 1) keyAllowed place tokens) = _ := run_unwind_succ hcolumn _
      rw [← Nat.add_assoc, ← Nat.add_assoc, hclosed, ih fun _ => hfirst]
      simp [List.replicate_succ']

/-- No block mapping is closed at a column that is far enough in. -/
theorem run_unwind_to_stop {s : Scan} {column : Int} (h : s.indent ≤ column) :
    (unwindTo column).run s = .ok ((), s) := by
  rw [unwindTo, StateT.run_bind, StateT.run_get]
  exact run_unwind_stop h _

/-- The block mappings that stand further in than a column are closed. -/
theorem run_unwind_to {column : Int} (hinner : 0 < n → column < columnAt (depth + 1))
    (houter : columnAt depth ≤ column) :
    (unwindTo column).run (inBlock (depth + n) keyAllowed place tokens) =
      .ok ((), inBlock depth keyAllowed place (List.replicate n .blockEnd ++ tokens)) := by
  rw [unwindTo, StateT.run_bind, StateT.run_get]
  simp only [pure_bind, inBlock, length_columns_around]
  exact run_unwind hinner houter depth

/-- Whether a plain scalar may begin like a text. -/
def startsPlain : List Char → Bool
  | [] => false
  | c :: rest =>
    !(indicators.contains c) || (['-', '?', ':'].contains c && rest.head?.any isInk)

/-! ## Between tokens -/

/-- Whether a character may stand in a key that is written without quotes. -/
def isKeyChar (c : Char) : Bool :=
  ('a' ≤ c && c ≤ 'z') || c = '_'

theorem ink_of_key {c : Char} (h : isKeyChar c = true) : isInk c = true := by
  simp only [isKeyChar, Bool.or_eq_true, Bool.and_eq_true, decide_eq_true_eq] at h
  rcases h with ⟨hleast, hmost⟩ | rfl
  · simp only [isInk, Bool.and_eq_true, decide_eq_true_eq]
    exact ⟨Char.le_trans (by decide) hleast, Char.le_trans hmost (by decide)⟩
  · decide

theorem visible_of_key {text : List Char} (h : text.head?.all isKeyChar = true) :
    startsVisible text = true := by
  cases text with
  | nil => rfl
  | cons c text =>
      have hblank := not_blank_of_ink (ink_of_key h)
      simp only [isBlank, Bool.or_eq_false_iff] at hblank
      simp [startsVisible, hblank.2]

theorem no_comment_of_key {text : List Char} (h : text.head?.all isKeyChar = true) :
    text.head? ≠ some '#' := by
  intro hhead
  rw [hhead] at h
  cases h

/-- A line end in front of a line that is moved in by the columns of a level; what follows is a key, or
nothing. -/
structure IsLineBreak (level : Nat) (text rest : List Char) : Prop where
  text_eq : text = '\n' :: (spaces (2 * level) ++ rest)
  key : rest.head?.all isKeyChar = true

/-- A place at the beginning of a line, behind the spaces that it is moved in by; `text` begins with the
line end in front of it. -/
structure LineStart (level : Nat) (text : List Char) (place : Place) : Prop
    extends IsLineBreak level text place.rest where
  column : place.column = 2 * level

theorem run_skip_spaces {s : Scan} {rest : List Char} (hvisible : startsVisible rest = true)
    (hcomment : rest.head? ≠ some '#') (hplace : s.place.rest = spaces n ++ rest) (lines : Nat) :
    (skipToToken (lines + 1)).run s = .ok ((), { s with place := s.place.along n rest }) := by
  have hspace : rest.head? ≠ some ' ' := by
    intro hhead
    rw [startsVisible, hhead] at hvisible
    cases hvisible
  have hskip : s.place.skipSpaces.skipComment = s.place.along n rest := by
    rw [Place.skip_spaces hspace hplace, Place.skip_comment_none hcomment]
  have hbreak : (s.place.along n rest).lineBreak? = none := break_none_of_visible hvisible
  rw [skipToToken, StateT.run_bind, StateT.run_get]
  simp only [pure_bind, hskip, hbreak]
  rfl

theorem run_skip_none {s : Scan} (hvisible : startsVisible s.place.rest = true)
    (hcomment : s.place.rest.head? ≠ some '#') (lines : Nat) :
    (skipToToken (lines + 1)).run s = .ok ((), s) :=
  run_skip_spaces (n := 0) hvisible hcomment rfl lines

/-- A line end in front of a key is skipped. -/
theorem run_skip_break (depth : Nat) (keyAllowed : Bool) (tokens : List Token) {level : Nat}
    {text rest : List Char} (htext : IsLineBreak level text rest)
    (hplace : place.rest = text) :
    ∃ next, LineStart level text next ∧ next.rest = rest ∧ ∀ lines,
      (skipToToken (lines + 2)).run (inBlock depth keyAllowed place tokens) =
        .ok ((), inBlock depth true next tokens) := by
  have hvisible := visible_of_key htext.key
  rw [htext.text_eq] at hplace
  refine ⟨(place.below (spaces (2 * level) ++ rest)).along (2 * level) rest, ⟨htext, ?_⟩, rfl,
    fun lines => ?_⟩
  · exact Nat.zero_add _
  · have hskip : place.skipSpaces.skipComment = place := by
      rw [Place.skip_spaces (n := 0) (by simp) hplace, Place.along_zero hplace,
        Place.skip_comment_none (by simp [hplace])]
    have hbreak := Place.line_break_feed hplace
    rw [skipToToken, StateT.run_bind, StateT.run_get]
    simp only [pure_bind, inBlock, hskip, hbreak]
    rw [StateT.run_bind, StateT.run_set]
    simp only [pure_bind]
    rw [run_skip_spaces hvisible (no_comment_of_key htext.key) rfl]
    simp

/-! ## Reading on -/

theorem run_next_token {s unwound : Scan} (hstale : dropStale.run s = .ok ((), s))
    (hunwound : (unwindTo s.place.column).run s = .ok ((), unwound)) :
    nextToken.run s = (nextToken.readRest s.place.rest).run unwound := by
  rw [nextToken, StateT.run_bind, hstale, ok_bind]
  simp only [StateT.run_bind, StateT.run_get, pure_bind, hunwound, ok_bind]

/-- Reading tokens from the beginning of a token ends in a last state. -/
def Ends (lines fuel : Nat) (s last : Scan) : Prop :=
  ∃ goesOn next, nextToken.run s = .ok (goesOn, next) ∧
    if goesOn then (Scanner.tokens lines fuel).run next = .ok ((), last) else next = last

/-- What separates a token from the one before is skipped first. -/
theorem run_tokens_of_ends {lines fuel : Nat} {behind s last : Scan}
    (hskip : (skipToToken lines).run behind = .ok ((), s)) (h : Ends lines fuel s last) :
    (Scanner.tokens lines (fuel + 1)).run behind = .ok ((), last) := by
  obtain ⟨goesOn, next, hnext, hlast⟩ := h
  have hread : (orBreak (skipToToken lines >>= fun _ => nextToken)).run behind =
      .ok (goesOn, next) := by
    show ((skipToToken lines >>= fun _ => nextToken).run behind).mapError _ = _
    rw [StateT.run_bind, hskip, ok_bind, hnext]
    rfl
  rw [Scanner.tokens, StateT.run_bind, hread]
  cases goesOn with
  | true => exact hlast
  | false => exact congrArg (fun s => Except.ok ((), s)) hlast

/-- Reading from one state goes on from another. -/
def Reaches (s t : Scan) : Prop :=
  ∃ n, n + t.place.rest.length ≤ s.place.rest.length ∧
    ∀ lines fuel last, Ends (lines + 2) fuel t last → Ends (lines + 2) (fuel + n) s last

namespace Reaches

variable {s t u : Scan}

theorem refl (s : Scan) : Reaches s s :=
  ⟨0, by omega, fun _ _ _ h => h⟩

theorem trans (h : Reaches s t) (hnext : Reaches t u) : Reaches s u := by
  obtain ⟨n, hn, hends⟩ := h
  obtain ⟨m, hm, hnextEnds⟩ := hnext
  refine ⟨m + n, by omega, fun lines fuel last hlast => ?_⟩
  rw [← Nat.add_assoc]
  exact hends lines _ last (hnextEnds lines fuel last hlast)

/-- One token is read, and what separates it from the next one. -/
theorem of_token {unwound behind : Scan} {c : Char} {rest : List Char}
    (hstale : dropStale.run s = .ok ((), s))
    (hunwound : (unwindTo s.place.column).run s = .ok ((), unwound))
    (hrest : s.place.rest = c :: rest) (htoken : (token c rest).run unwound = .ok ((), behind))
    (hskip : ∀ lines, (skipToToken (lines + 2)).run behind = .ok ((), t))
    (hlength : t.place.rest.length < s.place.rest.length) : Reaches s t := by
  refine ⟨1, by omega, fun lines fuel last hlast => ?_⟩
  refine ⟨true, behind, ?_, run_tokens_of_ends (hskip lines) hlast⟩
  rw [run_next_token hstale hunwound, hrest, nextToken.readRest, StateT.run_bind, htoken]
  rfl

/-- Block mappings that the next key or the end closes may be closed before. -/
theorem unwound (n : Nat) {level : Nat} (hcolumn : place.column = 2 * level) (hlevel : level < depth) :
    Reaches (inBlock (depth + n) keyAllowed place tokens)
      (inBlock depth keyAllowed place (List.replicate n .blockEnd ++ tokens)) := by
  refine ⟨0, by simp [inBlock], fun lines fuel last hlast => ?_⟩
  obtain ⟨m, rfl⟩ := Nat.exists_eq_add_of_lt hlevel
  have hinner : ∀ k, 0 < k → (place.column : Int) < columnAt (level + 1 + 1) := fun k _ => by
    simp only [columnAt, hcolumn]
    omega
  have houter : columnAt (level + 1) ≤ place.column := by
    simp only [columnAt, hcolumn]
    omega
  have hdepth : level + m + 1 = level + 1 + m := by omega
  have hall : (unwindTo place.column).run (inBlock (level + m + 1 + n) keyAllowed place tokens) =
      .ok ((), inBlock (level + 1) keyAllowed place
        (List.replicate m .blockEnd ++ (List.replicate n .blockEnd ++ tokens))) := by
    rw [hdepth, Nat.add_assoc, run_unwind_to (hinner _) houter, ← List.append_assoc,
      List.replicate_append_replicate]
  have hsome : (unwindTo place.column).run
      (inBlock (level + m + 1) keyAllowed place (List.replicate n .blockEnd ++ tokens)) =
      .ok ((), inBlock (level + 1) keyAllowed place
        (List.replicate m .blockEnd ++ (List.replicate n .blockEnd ++ tokens))) := by
    rw [hdepth, run_unwind_to (hinner _) houter]
  rw [Ends, run_next_token run_drop_stale hsome] at hlast
  rw [Ends, run_next_token run_drop_stale hall]
  exact hlast

end Reaches

/-! ## Tokens -/

/-- A character that can begin a plain scalar does. -/
theorem run_token_plain {s : Scan} {c : Char} {rest : List Char} (hflow : s.flow = 0)
    (hbegins : beginsPlain false c rest = true)
    (hmarker : ¬ (s.place.column = 0 ∧ atDocumentMarker (c :: rest) = true)) :
    (token c rest).run s = plainText.run s := by
  have hindicators : ∀ d ∈ ['%', '[', '\x7b', ']', '\x7d', ',', '*', '&', '!', '|', '>', '\'', '"'],
      indicators.contains d = true ∧ d ≠ '-' ∧ d ≠ '?' ∧ d ≠ ':' := by decide
  have hother : ∀ d ∈ ['%', '[', '\x7b', ']', '\x7d', ',', '*', '&', '!', '|', '>', '\'', '"'],
      c ≠ d := by
    rintro d hd rfl
    obtain ⟨hcontains, hdash, hquestion, hcolon⟩ := hindicators c hd
    rw [beginsPlain, hcontains] at hbegins
    simp [hdash, hquestion, hcolon] at hbegins
  have hdash : ∀ d ∈ ['-', '?', ':'], ¬ (c = d ∧ endsOrBlank rest = true) := by
    rintro d hd ⟨rfl, hends⟩
    have hcontains : ∀ d ∈ ['-', '?', ':'], indicators.contains d = true := by decide
    rw [beginsPlain, hcontains c hd, hends] at hbegins
    simp at hbegins
  simp only [List.forall_mem_cons] at hother hdash
  rw [token, StateT.run_bind, StateT.run_get]
  simp only [pure_bind, hflow, Nat.lt_irrefl, decide_false, hother, hdash, false_and,
    if_false, hbegins, if_true, false_or, decide_eq_true_eq, hmarker]

theorem run_token_colon {s : Scan} {rest : List Char} (hrest : endsOrBlank rest = true) :
    (token ':' rest).run s = valueMark.run s := by
  have hmarker : atDocumentMarker (':' :: rest) = false := not_marker (by simp) (by simp)
  rw [token, StateT.run_bind, StateT.run_get]
  simp [hmarker, hrest]

theorem run_token_quote {s : Scan} (double : Bool) {rest : List Char} :
    (token (quoteOf double) rest).run s = (quotedText double).run s := by
  cases double with
  | false =>
      have hmarker : atDocumentMarker ('\'' :: rest) = false := not_marker (by simp) (by simp)
      rw [token, StateT.run_bind, StateT.run_get]
      simp [hmarker, quoteOf]
  | true =>
      have hmarker : atDocumentMarker ('"' :: rest) = false := not_marker (by simp) (by simp)
      rw [token, StateT.run_bind, StateT.run_get]
      simp [hmarker, quoteOf]

/-- The open key that begins at a place. -/
def keyAt (depth : Nat) (place : Place) (tokens : List Token) : OpenKey :=
  ⟨tokens.length, decide (0 = 0 ∧ columnAt depth = (place.column : Int)), place.index, place.line,
    place.column⟩

/-- The state behind the name of a key. -/
def behindKey (depth : Nat) (start place : Place) (name : Text) (tokens : List Token) : Scan :=
  ⟨place, 0, columnAt depth, columnsAround depth, false, [(0, keyAt depth start tokens)],
    .scalar name true :: tokens, tokens.length + 1⟩

/-- A key stays open on its line as long as it is not too long. -/
theorem run_drop_stale_key {start : Place} {name : Text} (hline : start.line = place.line)
    (hlength : place.index - start.index ≤ keyLimit) :
    dropStale.run (behindKey depth start place name tokens) =
      .ok ((), behindKey depth start place name tokens) := by
  rw [dropStale, StateT.run_bind, StateT.run_get, pure_bind]
  have hfresh : (keyAt depth start tokens).isStale place = false := by
    simp [OpenKey.isStale, keyAt, hline, Nat.not_lt.2 hlength]
  simp only [behindKey, List.any_cons, List.any_nil, hfresh, Bool.false_and, Bool.or_self,
    Bool.false_eq_true, if_false, Bool.not_false, List.filter_cons_of_pos, List.filter_nil]
  rfl

theorem run_open_key : openKey.run (inBlock depth true place tokens) =
    .ok ((), { inBlock depth true place tokens with keys := [(0, keyAt depth place tokens)] }) := rfl

theorem run_open_no_key : openKey.run (inBlock depth false place tokens) =
    .ok ((), inBlock depth false place tokens) := rfl

/-- A plain scalar where a key may begin. -/
theorem run_plain_key {least : Int} (hleast : least = columnAt depth + 1) {name : List Char}
    {behind : Place} (hscalar : plainScalar false least place = (name, false, behind)) :
    plainText.run (inBlock depth true place tokens) =
      .ok ((), behindKey depth place behind (Text.ofChars name) tokens) := by
  subst hleast
  rw [plainText, StateT.run_bind, run_open_key, ok_bind, StateT.run_bind, StateT.run_get, pure_bind]
  simp only [inBlock, Nat.lt_irrefl, decide_false, hscalar]
  rfl

/-- A plain scalar where no key may begin. -/
theorem run_plain_value {least : Int} (hleast : least = columnAt depth + 1) {content : List Char}
    {crossed : Bool} {behind : Place}
    (hscalar : plainScalar false least place = (content, crossed, behind)) :
    plainText.run (inBlock depth false place tokens) =
      .ok ((), inBlock depth crossed behind (.scalar (Text.ofChars content) true :: tokens)) := by
  subst hleast
  rw [plainText, StateT.run_bind, run_open_no_key, ok_bind, StateT.run_bind, StateT.run_get,
    pure_bind]
  simp only [inBlock, Nat.lt_irrefl, decide_false, hscalar]
  rfl

theorem run_quoted_value {double : Bool} {content : Text} {behind : Place}
    (hscalar : quotedScalar double place = .ok (content, behind)) :
    (quotedText double).run (inBlock depth false place tokens) =
      .ok ((), inBlock depth false behind (.scalar content false :: tokens)) := by
  rw [quotedText, StateT.run_bind, run_open_no_key, ok_bind]
  simp only [allowKey, StateT.run_bind, StateT.run_modify, StateT.run_get, pure_bind, inBlock]
  rw [hscalar]
  rfl

theorem run_indent_to (column : Nat) (s : Scan) :
    (indentTo column).run s =
      if s.indent < (column : Int) then
        .ok (true, { s with indent := (column : Int), indents := s.indent :: s.indents })
      else .ok (false, s) := by
  rw [indentTo, StateT.run_bind, StateT.run_get, pure_bind]
  split <;> rfl

theorem run_emit_at {s : Scan} (front : List Token) {number : Nat} (token : Token)
    (htokens : s.tokens = front ++ tokens) (hcount : s.count = front.length + number) :
    (emitAt number token).run s =
      .ok ((), { s with tokens := front ++ token :: tokens, count := s.count + 1 }) := by
  have hbehind : s.count - number = front.length := by omega
  show Except.ok ((), { s with
    tokens := s.tokens.take (s.count - number) ++ token :: s.tokens.drop (s.count - number),
    count := s.count + 1 }) = _
  rw [hbehind, htokens, List.take_left, List.drop_left]

/-- The mark of a value makes what precedes it a key; the first key of a mapping opens it. -/
theorem run_value_mark {start : Place} {name : Text} :
    valueMark.run (behindKey depth start place name tokens) =
      .ok ((), if columnAt depth < (start.column : Int) then
        ⟨place.advance 1, 0, start.column, columnAt depth :: columnsAround depth, false, [],
          .value :: .scalar name true :: .key :: .blockMappingStart :: tokens, tokens.length + 4⟩
      else inBlock depth false (place.advance 1) (.value :: .scalar name true :: .key :: tokens)) := by
  rw [valueMark, StateT.run_bind, StateT.run_get, pure_bind]
  simp only [behindKey, List.lookup_cons, beq_self_eq_true]
  rw [StateT.run_bind, StateT.run_set, pure_bind, StateT.run_bind,
    run_emit_at [.scalar name true] _ rfl (Nat.add_comm ..), ok_bind]
  simp only [if_true]
  rw [StateT.run_bind, run_indent_to]
  by_cases hopen : columnAt depth < (start.column : Int)
  · simp only [keyAt, hopen, if_true, ok_bind]
    rw [StateT.run_bind, run_emit_at [.scalar name true, .key] _ rfl (Nat.add_comm _ 2)]
    rfl
  · simp only [keyAt, hopen, if_false, ok_bind, Bool.false_eq_true]
    rfl

/-! ## Members of a block mapping -/

/-- The name of a member as it is written: not too long, and in letters that need no quotes. -/
structure IsName (name : List Char) : Prop where
  ne_nil : name ≠ []
  key : ∀ c ∈ name, isKeyChar c = true
  length : name.length ≤ keyLimit

theorem IsName.word {name : List Char} (h : IsName name) : IsWord name where
  ne_nil := h.ne_nil
  ink c hc := ink_of_key (h.key c hc)
  head hhead := by
    have hkey := h.key _ (List.mem_of_mem_head? hhead)
    revert hkey
    decide
  last hlast := by
    have hkey := h.key _ (List.mem_of_getLast? hlast)
    revert hkey
    decide

theorem not_indicator_of_key {c : Char} (h : isKeyChar c = true) : c ∉ indicators := by
  have hnone : ∀ d ∈ indicators, isKeyChar d = false := by decide
  intro hmem
  rw [hnone c hmem] at h
  cases h

theorem begins_plain_of_key {c : Char} (h : isKeyChar c = true) (rest : List Char) :
    beginsPlain false c rest = true := by
  have hblank := not_blank_of_ink (ink_of_key h)
  simp [beginsPlain, hblank, not_indicator_of_key h]

theorem not_marker_of_key {text : List Char} (h : text.head?.all isKeyChar = true) :
    atDocumentMarker text = false := by
  refine not_marker (fun hhead => ?_) (fun hhead => ?_) <;> rw [hhead] at h <;> cases h

/-- The tokens in front of the value of a member, last first. -/
def memberStart (isFirst : Bool) (name : Text) (tokens : List Token) : List Token :=
  .value :: .scalar name true :: .key :: if isFirst then .blockMappingStart :: tokens else tokens

variable {level : Nat}

/-- The name of a member is read. -/
theorem name_reaches {name rest : List Char} (hname : IsName name)
    (hplace : place.rest = name ++ ':' :: rest) (hrest : endsOrBlank rest = true)
    (hcolumn : place.column = 2 * level) (houter : columnAt depth ≤ (2 * level : Nat)) :
    Reaches (inBlock depth true place tokens)
      (behindKey depth place (place.along name.length (':' :: rest)) (Text.ofChars name) tokens) := by
  obtain ⟨c, others, rfl⟩ := List.exists_cons_of_ne_nil hname.ne_nil
  have hc := hname.key c (List.mem_cons_self ..)
  have hscalar := plain_scalar_key (columnAt depth + 1) hname.word hrest hplace
  have hcolumn : (inBlock depth true place tokens).indent ≤ (place.column : Int) := hcolumn ▸ houter
  refine Reaches.of_token run_drop_stale (run_unwind_to_stop hcolumn) hplace ?_
    (fun lines => run_skip_none rfl (by simp [behindKey]) _) ?_
  · rw [run_token_plain rfl (begins_plain_of_key hc _) (fun h => ?_)]
    · exact run_plain_key rfl hscalar
    · have hmarker : atDocumentMarker (c :: (others ++ ':' :: rest)) = false :=
        not_marker_of_key hc
      exact Bool.false_ne_true (hmarker.symm.trans h.2)
  · simp only [hplace, inBlock, behindKey, Place.rest_along, List.cons_append, List.length_cons,
      List.length_append]
    omega

/-- The mark behind the name of a member is read, and the name is a key. -/
theorem value_reaches {isFirst : Bool} {name rest : List Char} {t : Scan} (hname : IsName name)
    (hrest : endsOrBlank rest = true) (hcolumn : place.column = 2 * level)
    (hdepth : depth = if isFirst then level else level + 1)
    (hskip : ∀ lines, (skipToToken (lines + 2)).run
      (inBlock (level + 1) false (place.along (name.length + 1) rest)
        (memberStart isFirst (Text.ofChars name) tokens)) = .ok ((), t))
    (hlength : t.place.rest.length ≤ rest.length) :
    Reaches (behindKey depth place (place.along name.length (':' :: rest)) (Text.ofChars name) tokens)
      t := by
  have houter : columnAt depth ≤ (place.column + name.length : Nat) := by
    subst hdepth
    cases isFirst
    · simp only [columnAt, hcolumn, Bool.false_eq_true, if_false]
      omega
    · cases level <;> simp only [columnAt, hcolumn, if_true] <;> omega
  have hplace : (place.along name.length (':' :: rest)).advance 1 =
      place.along (name.length + 1) rest := by
    rw [Place.advance, Place.step_inline rfl (by decide), Place.along_along]
    rfl
  have hcolon : (place.along name.length (':' :: rest)).rest = ':' :: rest := rfl
  refine Reaches.of_token ?_ (run_unwind_to_stop houter) hcolon ?_ hskip ?_
  · exact run_drop_stale_key rfl (by simpa using hname.length)
  · rw [run_token_colon hrest, run_value_mark, hplace]
    subst hdepth
    cases isFirst
    · have hclosed : ¬ columnAt (level + 1) < (place.column : Int) := by
        simp only [columnAt, hcolumn]
        omega
      simp only [Bool.false_eq_true, if_false, hclosed]
      rfl
    · have hopen : columnAt level < (place.column : Int) := by
        cases level <;> simp only [columnAt, hcolumn] <;> omega
      have hindent : (place.column : Int) = columnAt (level + 1) := by
        simp only [columnAt, hcolumn]
        omega
      simp only [if_true, hopen]
      rw [hindent]
      rfl
  · show t.place.rest.length < rest.length + 1
    omega

/-- A member is read up to the mark of its value; the first one opens its mapping. -/
theorem Reaches.member {isFirst : Bool} {name rest : List Char} {t : Scan} (hname : IsName name)
    (hplace : place.rest = name ++ ':' :: rest) (hrest : endsOrBlank rest = true)
    (hcolumn : place.column = 2 * level)
    (hskip : ∀ lines, (skipToToken (lines + 2)).run
      (inBlock (level + 1) false (place.along (name.length + 1) rest)
        (memberStart isFirst (Text.ofChars name) tokens)) = .ok ((), t))
    (hlength : t.place.rest.length ≤ rest.length) :
    Reaches (inBlock (if isFirst then level else level + 1) true place tokens) t := by
  obtain ⟨depth, hdepth⟩ : ∃ depth, depth = if isFirst then level else level + 1 := ⟨_, rfl⟩
  rw [← hdepth]
  have houter : columnAt depth ≤ (2 * level : Nat) := by
    subst hdepth
    cases isFirst with
    | false => exact Int.le_of_eq (column_at_succ level)
    | true => exact column_at_le level
  exact (name_reaches hname hplace hrest hcolumn houter).trans
    (value_reaches hname hrest hcolumn hdepth hskip hlength)

/-- A plain scalar begins like the text it spells. -/
theorem begins_plain_of_spelled {indent : Nat} {content w : List Char}
    (h : PlainSpelled indent content w) (hstart : startsPlain content = true) :
    ∃ c others, w = c :: others ∧ ∀ rest, beginsPlain false c (others ++ rest) = true := by
  obtain ⟨word, others, spelled, hword, rfl, rfl, hothers⟩ := h.first_word
  obtain ⟨c, word, rfl⟩ := List.exists_cons_of_ne_nil hword.ne_nil
  refine ⟨c, word ++ spelled, rfl, fun rest => ?_⟩
  have hblank := not_blank_of_ink (hword.ink c (List.mem_cons_self ..))
  rw [List.cons_append, startsPlain, Bool.or_eq_true, Bool.and_eq_true] at hstart
  rcases hstart with hother | ⟨hmark, hink⟩
  · rw [beginsPlain, hblank, Bool.false_or, hother, Bool.true_or]
  · cases word with
    | nil =>
        rw [List.nil_append, hothers] at hink
        cases hink
    | cons d word =>
        have hends : endsOrBlank (d :: word ++ spelled ++ rest) = false := not_blank_of_ink hink
        rw [beginsPlain, hends]
        simp only [List.contains_cons, List.contains_nil, Bool.or_false, Bool.or_eq_true,
          beq_iff_eq] at hmark
        simp [hmark]

/-- The value of a member that is a plain scalar is read. -/
theorem Reaches.plain {next : Nat} {content w text rest : List Char}
    (h : PlainSpelled (2 * (level + 1)) content w) (hstart : startsPlain content = true)
    (htext : IsLineBreak next text rest) (hnext : next ≤ level) (hplace : place.rest = w ++ text)
    (hcolumn : 2 * level < place.column) :
    ∃ behind, LineStart next text behind ∧
      Reaches (inBlock (level + 1) false place tokens)
        (inBlock (level + 1) true behind (.scalar (Text.ofChars content) true :: tokens)) := by
  obtain ⟨rfl, hkey⟩ := htext
  have hvisible := visible_of_key hkey
  have hmarker : atDocumentMarker (spaces (2 * next) ++ rest) = false := by
    cases next with
    | zero => exact not_marker_of_key hkey
    | succ next => exact not_marker nofun nofun
  obtain ⟨behind, hbehind, hcolumnBehind, hscalar⟩ := plain_scalar_spelled
    (columnAt (level + 1) + 1) h (by simp only [columnAt]; omega)
    (by simp only [columnAt]; omega) hvisible hmarker hplace (by simp only [columnAt]; omega)
  refine ⟨behind, ⟨⟨by rw [hbehind], hbehind ▸ hkey⟩, hcolumnBehind⟩, ?_⟩
  obtain ⟨c, others, rfl, hbegins⟩ := begins_plain_of_spelled h hstart
  rw [List.cons_append] at hplace
  refine Reaches.of_token run_drop_stale (run_unwind_to_stop ?_) hplace ?_
    (fun lines => run_skip_none (hbehind ▸ hvisible) (hbehind ▸ no_comment_of_key hkey) _) ?_
  · simp only [inBlock, columnAt]
    omega
  · rw [run_token_plain rfl (hbegins _) fun hline => ?_]
    · exact run_plain_value rfl hscalar
    · have hzero : place.column = 0 := hline.1
      omega
  · simp [inBlock, hplace, hbehind]
    omega

/-- The value of a member that is a quoted scalar is read. -/
theorem Reaches.quoted {next : Nat} {double : Bool} {content : Text} {w text rest : List Char}
    (h : Spelled double (2 * (level + 1)) content w) (htext : IsLineBreak next text rest)
    (hplace : place.rest = quoteOf double :: (w ++ quoteOf double :: text))
    (hcolumn : 2 * level < place.column) :
    ∃ behind, LineStart next text behind ∧
      Reaches (inBlock (level + 1) false place tokens)
        (inBlock (level + 1) true behind (.scalar content false :: tokens)) := by
  obtain ⟨middle, hmiddle, hscalar⟩ := quoted_scalar_spelled h (by omega)
    (fun _ => by simp [htext.text_eq]) hplace
  obtain ⟨behind, hline, hbehind, hskip⟩ := run_skip_break (level + 1) false
    (.scalar content false :: tokens) htext hmiddle
  refine ⟨behind, hline, Reaches.of_token run_drop_stale (run_unwind_to_stop ?_) hplace ?_
    hskip ?_⟩
  · simp only [inBlock, columnAt]
    omega
  · rw [run_token_quote]
    exact run_quoted_value hscalar
  · simp [inBlock, hplace, hbehind, htext.text_eq]
    omega

end Scanner

end Yaml

end ProgramInterface
