import ProgramInterface.Grammar.Expressions
import ProgramInterface.Proofs.Grammar.Draft

/-!
# Reading numbers

An integer in front of a closing bracket is read as an expression that holds nothing else
(`read_integer_expression`): no other operand begins with a digit, and no operator follows.
-/

namespace ProgramInterface

open Lexical Draft Reader

namespace Grammar

variable {draft : Draft} {text gap rest : List Char} {sub : SubReader}

/-! ## Nothing else begins with a digit -/

/-- Whether a digit stands in front of a draft. -/
def AtDigit (draft : Draft) : Prop :=
  ∃ c tail, draft.rest = c :: tail ∧ isDigit c = true

/-- Whether a text begins with a character that is no digit. -/
def BeginsOther (text : List Char) : Prop :=
  text.head?.any (!isDigit ·) = true

instance (text : List Char) : Decidable (BeginsOther text) :=
  inferInstanceAs (Decidable (_ = true))

theorem AtDigit.not_begins (h : AtDigit draft) (hother : BeginsOther text) :
    ¬ text <+: draft.rest := by
  rintro ⟨behind, heq⟩
  obtain ⟨c, tail, hrest, hc⟩ := h
  cases text with
  | nil => cases hother
  | cons d text =>
      rw [hrest] at heq
      cases heq
      simp [BeginsOther, hc] at hother

theorem AtDigit.sees (h : AtDigit draft) (text : String) (hother : BeginsOther text.toList) :
    Reader.sees text draft = some (false, draft) :=
  sees_false (h.not_begins hother)

theorem AtDigit.not_at_word (h : AtDigit draft) (hother : BeginsOther text) :
    beginsWithWord text draft.rest = false := by
  rw [Bool.eq_false_iff]
  intro hword
  obtain ⟨behind, heq, _⟩ := begins_with_word_iff.1 hword
  exact h.not_begins hother (heq ▸ List.prefix_append ..)

theorem AtDigit.at_word (h : AtDigit draft) (text : String) (hother : BeginsOther text.toList) :
    atWord text draft = some (false, draft) :=
  at_word_false (h.not_at_word hother)

theorem AtDigit.word (h : AtDigit draft) (text : String) (hother : BeginsOther text.toList) :
    Reader.word text draft = none :=
  word_none (h.not_at_word hother)

theorem would_read_none {α : Type} {reader : Reader α} (h : reader draft = none) :
    wouldRead reader draft = some (false, draft) := by
  rw [wouldRead, h]
  rfl

/-- No block, conditional, match or loop begins with a digit. -/
theorem AtDigit.at_block_like (h : AtDigit draft) : atBlockLike draft = some (false, draft) := by
  have hworded (word : String) (hother : BeginsOther word.toList) :
      wouldRead (do Reader.word word; token "\x7b") draft = some (false, draft) :=
    would_read_none (read_bind_none (h.word word hother))
  have hmoved : wouldRead (do Reader.word "async"; Reader.word "move"; token "\x7b") draft =
      some (false, draft) := would_read_none (read_bind_none (h.word "async" (by decide)))
  have hquote : lifetime? draft.rest = none := by
    obtain ⟨c, tail, hrest, hc⟩ := h
    rw [hrest, lifetime?.eq_def]
    split
    · rename_i hcons
      exact absurd ((List.cons.inj hcons).1 ▸ hc) (by decide)
    · rfl
  have hlabel : wouldRead (do lifetime; sign ":") draft = some (false, draft) :=
    would_read_none (read_bind_none (lexeme_none hquote))
  rw [atBlockLike, read_bind (h.sees "\x7b" (by decide)), read_bind (h.at_word "if" (by decide)),
    read_bind (h.at_word "match" (by decide)), read_bind (h.at_word "while" (by decide)),
    read_bind (h.at_word "loop" (by decide)), if_neg (by decide),
    read_if_false (h.at_word "for" (by decide)), read_bind (hworded "unsafe" (by decide)),
    read_bind (hworded "async" (by decide)), read_bind (hworded "try" (by decide)),
    read_bind (hworded "const" (by decide)), if_neg (by decide), read_if_false hmoved, hlabel]

/-- No closure begins with a digit. -/
theorem AtDigit.at_closure (h : AtDigit draft) : atClosure draft = some (false, draft) := by
  have hword (text : String) (hother : BeginsOther text.toList) :
      Reader.optional (Reader.word text) draft = some ((), draft) := optional_none (h.word text hother)
  rw [atClosure, read_if_false (h.sees "|" (by decide))]
  refine would_read_none ?_
  rw [read_bind (hword "static" (by decide)), read_bind (hword "async" (by decide)),
    read_bind (hword "move" (by decide))]
  exact token_none (h.not_begins (by decide))

/-- Nothing that stands in front of an operand begins with a digit. -/
theorem AtDigit.prefix_step (h : AtDigit draft) : prefixStep sub draft = none := by
  have hhead : ∀ c, isDigit c = false → draft.rest.head? ≠ some c := by
    obtain ⟨d, tail, hrest, hd⟩ := h
    intro c hc hhead
    rw [hrest] at hhead
    cases hhead
    exact Bool.false_ne_true (hc.symm.trans hd)
  rw [prefixStep, read_bind (read_rest draft)]
  generalize draft.rest.head? = head at hhead
  split
  · exact absurd rfl (hhead '-' (by decide))
  · exact absurd rfl (hhead '!' (by decide))
  · exact absurd rfl (hhead '*' (by decide))
  · exact absurd rfl (hhead '&' (by decide))
  · exact read_bind_none (h.word "let" (by decide))

/-! ## Integers -/

theorem IsWholeInteger.begins_digit (h : IsWholeInteger text) :
    ∃ c tail, text = c :: tail ∧ isDigit c = true := by
  rw [IsWholeInteger, integer_eq, Option.map_eq_some_iff] at h
  obtain ⟨n, hdigits, _⟩ := h
  rcases digits_cases hdigits with ⟨base, rest, rfl, _⟩ | ⟨hplain, _⟩
  · exact ⟨'0', _, rfl, by decide⟩
  · obtain ⟨c, rest, rfl, hc, _⟩ := plain_digits_eq_some hplain
    exact ⟨c, rest, rfl, hc⟩

theorem at_digit_of_integer (hinteger : IsWholeInteger text) (h : draft.Stands text gap rest) :
    AtDigit draft := by
  obtain ⟨c, tail, rfl, hc⟩ := IsWholeInteger.begins_digit hinteger
  exact ⟨c, _, h.rest_eq, hc⟩

/-- No quoted text begins with a digit. -/
theorem AtDigit.quoted_literal (h : AtDigit draft) : quotedLiteral draft = none := by
  obtain ⟨c, tail, hrest, hc⟩ := h
  have hne {d : Char} (hd : isDigit d = false) : c ≠ d := fun heq =>
    Bool.false_ne_true (hd.symm.trans (heq ▸ hc))
  have hstring : string? (c :: tail) = none := by
    rw [string?.eq_def]
    split
    · exact absurd (List.cons.inj ‹_›).1 (hne (by decide))
    · exact absurd (List.cons.inj ‹_›).1 (hne (by decide))
    · exact absurd (List.cons.inj ‹_›).1 (hne (by decide))
    · exact absurd (List.cons.inj ‹_›).1 (hne (by decide))
    · exact absurd (List.cons.inj ‹_›).1 (hne (by decide))
    · exact absurd (List.cons.inj ‹_›).1 (hne (by decide))
    · rfl
  have hchar : char? (c :: tail) = none := by
    rw [char?.eq_def]
    split
    · exact absurd (List.cons.inj ‹_›).1 (hne (by decide))
    · exact quoted_char_none fun hhead => hne (by decide) (Option.some.inj hhead)
  exact lexeme_none (by rw [hrest, hstring, hchar]; rfl)

/-- An integer is read as a literal where an operand may stand. -/
theorem read_integer_atom (hinteger : IsWholeInteger text) (h : draft.Stands text gap rest)
    (hbreaks : Breaks (gap ++ rest)) (hpoint : (gap ++ rest).head? ≠ some '.') (structs : Bool) :
    atom sub structs draft = some ((), draft.past text gap rest
      (draft.leaf .integerLiteral true none text.length :: draft.done)) := by
  have hdigit := at_digit_of_integer hinteger h
  have hfloat : float? draft.rest = none := h.rest_eq ▸ hinteger.float_none hbreaks hpoint
  have hlength : integer? draft.rest = some text.length :=
    h.rest_eq ▸ hinteger.integer_in_front hbreaks
  rw [atom, read_if_false hdigit.at_block_like, read_if_false (hdigit.sees "(" (by decide)),
    read_if_false (hdigit.sees "[" (by decide)), read_if_false hdigit.at_closure,
    read_bind (hdigit.at_word "return" (by decide)), read_bind (hdigit.at_word "break" (by decide)),
    read_bind (hdigit.at_word "continue" (by decide)),
    read_bind (hdigit.at_word "yield" (by decide)), if_neg (by decide),
    read_if_false (hdigit.at_word "for" (by decide))]
  refine or_else_some ?_
  rw [plainLiteral, or_else_none hdigit.quoted_literal, number, or_else_none (lexeme_none hfloat)]
  exact read_lexeme h hlength

/-- A character that begins no long sign is a sign of its own. -/
theorem sign_of_head {c : Char} {tail : List Char} (h : ∀ long ∈ longSigns, long.head? ≠ some c) :
    Lexical.sign (c :: tail) = [c] := by
  have hnone : longSigns.find? (·.isPrefixOf (c :: tail)) = none := by
    refine List.find?_eq_none.2 fun long hlong hbegins => ?_
    obtain ⟨behind, heq⟩ := List.isPrefixOf_iff_prefix.1 hbegins
    cases long with
    | nil => exact absurd hlong (by decide)
    | cons d long =>
        cases heq
        exact h _ hlong rfl
  rw [Lexical.sign, hnone]
  rfl

/-! ## In front of a closing bracket -/

variable (hclosing : draft.rest.head? = some ']')

include hclosing

theorem not_begins_of_closing (hother : text ≠ [] ∧ text.head? ≠ some ']') :
    ¬ text <+: draft.rest := by
  obtain ⟨c, tail, rfl⟩ := List.exists_cons_of_ne_nil hother.1
  exact not_begins fun hhead => hother.2 (hhead.symm.trans hclosing)

/-- No operand goes on with a closing bracket. -/
theorem postfix_step_none : postfixStep sub draft = none := by
  have hsees (text : String) (hother : text.toList ≠ [] ∧ text.toList.head? ≠ some ']') :
      sees text draft = some (false, draft) := sees_false (not_begins_of_closing hclosing hother)
  have hword : beginsWithWord "as".toList draft.rest = false := by
    rw [Bool.eq_false_iff]
    intro hword
    obtain ⟨behind, heq, _⟩ := begins_with_word_iff.1 hword
    exact not_begins_of_closing hclosing (by decide) (heq ▸ List.prefix_append ..)
  rw [postfixStep, read_if_false (hsees "?" (by decide)), read_if_false (hsees "(" (by decide)),
    read_if_false (hsees "[" (by decide)), read_if_false (at_word_false hword)]
  have hpoint : draft.rest.head? ≠ some '.' := by simp [hclosing]
  exact read_bind_none (sign_none (sign_ne hpoint))

/-- No operator begins with a closing bracket. -/
theorem operator_step_none (structs : Bool) : operatorStep structs draft = some (false, draft) := by
  have hsign : Lexical.sign draft.rest = [']'] := by
    obtain ⟨tail, htail⟩ := List.head?_eq_some_iff.1 hclosing
    rw [htail, sign_of_head (by decide)]
  rw [operatorStep, read_bind (read_rest draft), hsign]
  rfl

omit hclosing

/-- No range begins with a digit. -/
theorem AtDigit.not_range (h : AtDigit draft) :
    rangeSigns.contains (Lexical.sign draft.rest) = false := by
  have hlong : ∀ long ∈ longSigns, BeginsOther long := by decide
  have hrange : ∀ range ∈ rangeSigns, BeginsOther range := by decide
  obtain ⟨c, tail, hrest, hc⟩ := h
  rw [hrest, sign_of_head fun long hmem hhead => by
    have hother := hlong long hmem
    simp [BeginsOther, hhead, hc] at hother, Bool.eq_false_iff]
  intro hcontains
  have hother := hrange [c] (by simpa using hcontains)
  simp [BeginsOther, hc] at hother

/-- An integer in front of a closing bracket is the only operand. -/
theorem read_operands (hinteger : IsWholeInteger text) (h : draft.Stands text gap rest)
    (hrest : rest.head? = some ']') : operands sub true draft =
      some ((), draft.past text gap rest
        (draft.leaf .integerLiteral true none text.length :: draft.done)) := by
  have hdigit := at_digit_of_integer hinteger h
  have hends : ∀ c ∈ (gap ++ rest).head?, isGap c = true ∨ c = ']' := by
    intro c hc
    cases gap with
    | nil => exact .inr (Option.some.inj (hc.symm.trans hrest))
    | cons d gap =>
        cases hc
        exact .inl (h.gap _ (List.mem_cons_self ..))
  have hbreaks : Breaks (gap ++ rest) := fun c hc => by
    rcases hends c hc with hgap | rfl
    · exact (gap_breaks hgap).1
    · decide
  have hpoint : (gap ++ rest).head? ≠ some '.' := fun hhead => by
    rcases hends '.' hhead with hgap | heq
    · exact absurd hgap (by decide)
    · exact absurd heq (by decide)
  have hwhole : wholeOperand sub true draft = some ((), draft.past text gap rest
      (draft.leaf .integerLiteral true none text.length :: draft.done)) := by
    rw [wholeOperand, read_bind (many_none hdigit.prefix_step),
      read_bind (read_integer_atom hinteger h hbreaks hpoint true)]
    exact many_none (postfix_step_none hrest)
  refine Loops.while_true (.stop ?_) h.bound
  rw [read_bind (read_rest draft)]
  dsimp only
  rw [hdigit.not_range, if_neg Bool.false_ne_true, read_bind hwhole]
  exact operator_step_none hrest true

/-- An integer in front of a closing bracket is read as an expression with nothing else in it. -/
theorem read_integer_expression (hinteger : IsWholeInteger text) (h : draft.Stands text gap rest)
    (hrest : rest.head? = some ']') : expression sub true draft =
      some ((), draft.past text gap rest
        (draft.node .expression none text
          [draft.leaf .integerLiteral true none text.length] :: draft.done)) :=
  read_branch h .expression none (read_operands hinteger (h.with_done []) hrest)

end Grammar

end ProgramInterface
