import Mathlib.Data.List.Find
import ProgramInterface.Proofs.Grammar.Lexical
import ProgramInterface.Proofs.Text.Class

/-!
# Words in front of other text

A word is read to its end wherever the character behind it breaks words: names
(`IsWholeName.name_in_front`), the words of the grammar (`IsWholeName.begins_with_word`), lifetimes
(`IsWholeLifetime.lifetime_in_front`) and integers (`IsWholeInteger.integer_in_front`).
-/

namespace ProgramInterface

namespace Lexical

/-- Whether a text as a whole is a name. -/
def IsWholeName (text : List Char) : Prop :=
  name? text = some text.length

/-- Whether a text as a whole is a lifetime. -/
def IsWholeLifetime (text : List Char) : Prop :=
  lifetime? text = some text.length

/-- Whether a text as a whole is an integer literal. -/
def IsWholeInteger (text : List Char) : Prop :=
  integer? text = some text.length

/-- White space, perhaps none. -/
def IsBlank (text : List Char) : Prop :=
  ∀ c ∈ text, isGap c = true

/-- Whether two words would be read as one if they stood next to each other. -/
def runTogether (word next : List Char) : Bool :=
  word.getLast?.any isNameNext && next.head?.any isNameNext

/-- Whether a character breaks words: no name goes on with it, and no quoted text or raw name begins
with it. -/
def breaksWord (c : Char) : Bool :=
  !isNameNext c && c ≠ '#' && c ≠ '"' && c ≠ '\''

/-- Whether a text breaks words that stand in front of it. -/
def Breaks (behind : List Char) : Prop :=
  ∀ c ∈ behind.head?, breaksWord c = true

/-! ## Characters -/

theorem gap_breaks {c : Char} (h : isGap c = true) : breaksWord c = true ∧ c ≠ '<' := by
  have hgaps : ∀ n < 33, isGap (Char.ofNat n) = true →
      breaksWord (Char.ofNat n) = true ∧ Char.ofNat n ≠ '<' := by decide
  have hlt : c.toNat < 33 := by
    simp only [isGap, Bool.or_eq_true, decide_eq_true_eq, Bool.and_eq_true, Char.le_def,
      UInt32.le_iff_toNat_le] at h
    rcases h with rfl | ⟨_, hle⟩
    · decide
    · exact Nat.lt_of_le_of_lt hle (by decide)
  exact Char.ofNat_toNat c ▸ hgaps c.toNat hlt ((Char.ofNat_toNat c).symm ▸ h)

theorem Breaks.not_name_next {behind : List Char} (h : Breaks behind) :
    ∀ c ∈ behind.head?, isNameNext c = false := by
  intro c hc
  have hbreaks := h c hc
  simp only [breaksWord, Bool.and_eq_true, Bool.not_eq_true'] at hbreaks
  exact hbreaks.1.1.1

theorem Breaks.ne {behind : List Char} (h : Breaks behind) {c : Char}
    (hc : breaksWord c = false) : behind.head? ≠ some c := by
  intro hhead
  exact Bool.false_ne_true (hc.symm.trans (h c hhead))

/-- White space breaks words, and without any the rest has to. -/
theorem breaks_append {gap rest : List Char} (hgap : IsBlank gap) (hrest : gap = [] → Breaks rest) :
    Breaks (gap ++ rest) := by
  cases gap with
  | nil => exact hrest rfl
  | cons c gap =>
      intro d hd
      cases hd
      exact (gap_breaks (hgap c (List.mem_cons_self ..))).1

/-- White space is neither part of a name nor a bracket. -/
theorem IsBlank.not_name_next {text : List Char} (h : IsBlank text) {c : Char} (hc : c ∈ text) :
    isNameNext c = false ∧ c ≠ '<' := by
  obtain ⟨hbreaks, hbracket⟩ := gap_breaks (h c hc)
  simp only [breaksWord, Bool.and_eq_true, Bool.not_eq_true'] at hbreaks
  exact ⟨hbreaks.1.1.1, hbracket⟩

/-! ## Runs of characters -/

/-- What goes on with no character of a run does not change it. -/
theorem take_while_in_front {p : Char → Bool} {text behind : List Char}
    (h : ∀ c ∈ behind.head?, p c = false) :
    (text ++ behind).takeWhile p = text.takeWhile p := by
  have hbehind : behind.takeWhile p = [] := by
    cases behind with
    | nil => rfl
    | cons c rest => exact List.takeWhile_cons_of_neg (by simp [h c rfl])
  rw [List.takeWhile_append, hbehind, List.append_nil]
  split
  · rename_i hall
    exact ((List.takeWhile_prefix p).eq_of_length hall).symm
  · rfl

/-! ## Names -/

theorem name_run_in_front {text behind : List Char} (h : Breaks behind) :
    nameRun (text ++ behind) = nameRun text := by
  rw [nameRun, nameRun, take_while_in_front h.not_name_next]

/-- The two forms of names. -/
theorem IsWholeName.cases {name : List Char} (h : IsWholeName name) :
    (∃ c rest, name = 'r' :: '#' :: c :: rest ∧ isNameStart c = true ∧
      ∀ d ∈ rest, isNameNext d = true) ∨
    (∃ c rest, name = c :: rest ∧ isNameStart c = true ∧ ∀ d ∈ rest, isNameNext d = true) := by
  have hall {rest : List Char} (hrun : nameRun rest = rest.length) :
      ∀ d ∈ rest, isNameNext d = true := by
    intro d hd
    rw [← (List.takeWhile_prefix isNameNext).eq_of_length hrun] at hd
    exact List.mem_takeWhile_imp hd
  unfold IsWholeName name? at h
  split at h
  · rename_i c rest
    split at h
    · rename_i hc
      refine .inl ⟨c, rest, rfl, hc, hall ?_⟩
      simp only [Option.some.injEq, List.length_cons] at h
      omega
    · simp at h
  · rename_i c rest _
    split at h
    · rename_i hc
      refine .inr ⟨c, rest, rfl, hc, hall ?_⟩
      simp only [Option.some.injEq, List.length_cons] at h
      omega
    · cases h
  · cases h

theorem IsWholeName.ne_nil {text : List Char} (h : IsWholeName text) : text ≠ [] := by
  rintro rfl
  cases h

theorem IsWholeName.no_bracket {text : List Char} (h : IsWholeName text) : '<' ∉ text := by
  intro hmem
  have hchars := name_chars h '<' (by rwa [List.take_length])
  exact absurd hchars (by decide)

/-- The last character of a name goes on with one. -/
theorem IsWholeName.last_next {name : List Char} (h : IsWholeName name) :
    name.getLast?.any isNameNext = true := by
  rw [Option.any_eq_true]
  have hlast {c : Char} {rest : List Char} (hc : isNameStart c = true)
      (hrest : ∀ d ∈ rest, isNameNext d = true) :
      isNameNext ((c :: rest).getLast (List.cons_ne_nil c rest)) = true := by
    rcases List.mem_cons.1 (List.getLast_mem (List.cons_ne_nil c rest)) with heq | hmem
    · rw [heq]
      exact name_next_of_start hc
    · exact hrest _ hmem
  rcases h.cases with ⟨c, rest, rfl, hc, hrest⟩ | ⟨c, rest, rfl, hc, hrest⟩
  · exact ⟨_, by rw [List.getLast?_cons_cons, List.getLast?_cons_cons, List.getLast?_eq_some_getLast],
      hlast hc hrest⟩
  · exact ⟨_, List.getLast?_eq_some_getLast _, hlast hc hrest⟩

theorem name_run_of_all {rest : List Char} (h : ∀ d ∈ rest, isNameNext d = true) :
    nameRun rest = rest.length := by
  rw [nameRun, List.takeWhile_eq_self_iff.2 h]

/-- Behind a name that is not marked as one stands no mark. -/
theorem head_not_mark {rest behind : List Char} (hrest : ∀ d ∈ rest, isNameNext d = true)
    (hbreaks : Breaks behind) : (rest ++ behind).head? ≠ some '#' := by
  cases rest with
  | nil => exact hbreaks.ne (by decide)
  | cons d rest =>
      intro hd
      cases hd
      exact absurd (hrest '#' (List.mem_cons_self ..)) (by decide)

/-- A name is read to its end in front of what breaks words. -/
theorem IsWholeName.name_in_front {name behind : List Char} (h : IsWholeName name)
    (hbreaks : Breaks behind) : name? (name ++ behind) = some name.length := by
  rcases h.cases with ⟨c, rest, rfl, hc, hrest⟩ | ⟨c, rest, rfl, hc, hrest⟩
  · have hrun : nameRun (rest ++ behind) = rest.length :=
      (name_run_in_front hbreaks).trans (name_run_of_all hrest)
    have hname : name? ('r' :: '#' :: c :: (rest ++ behind)) = some (3 + nameRun (rest ++ behind)) :=
      if_pos hc
    rw [hrun, Nat.add_comm] at hname
    exact hname
  · have hrun : nameRun (rest ++ behind) = rest.length :=
      (name_run_in_front hbreaks).trans (name_run_of_all hrest)
    rw [List.cons_append, name?.eq_def]
    split
    · rename_i hmark
      have htail := (List.cons.inj hmark).2
      exact absurd (htail ▸ rfl) (head_not_mark hrest hbreaks)
    · rename_i hcons
      obtain ⟨rfl, rfl⟩ := List.cons.inj hcons
      rw [if_pos hc, hrun, Nat.add_comm, List.length_cons]
    · rename_i hnil
      cases hnil

/-! ## Words of the grammar -/

theorem begins_with_word_iff {word text : List Char} : beginsWithWord word text = true ↔
    ∃ behind, text = word ++ behind ∧ ∀ c ∈ behind.head?, isNameNext c = false := by
  rw [beginsWithWord, Bool.and_eq_true, List.isPrefixOf_iff_prefix]
  constructor
  · rintro ⟨⟨behind, rfl⟩, hend⟩
    refine ⟨behind, rfl, fun c hc => ?_⟩
    rw [List.drop_left] at hend
    cases behind with
    | nil => cases hc
    | cons d rest =>
        cases hc
        exact Bool.not_eq_true' _ ▸ hend
  · rintro ⟨behind, rfl, hend⟩
    refine ⟨List.prefix_append .., ?_⟩
    rw [List.drop_left]
    cases behind with
    | nil => rfl
    | cons d rest => simp [hend d rfl]

/-- From the third character on a name goes on with name characters, and its second one is no other
but the mark. -/
theorem IsWholeName.of_append {word rest : List Char} {c : Char}
    (h : IsWholeName (word ++ c :: rest)) (hmark : '#' ∉ word) (hlong : 2 ≤ word.length) :
    isNameNext c = true := by
  obtain ⟨first, second, word, rfl⟩ : ∃ first second tail, word = first :: second :: tail := by
    match word, hlong with
    | first :: second :: tail, _ => exact ⟨first, second, tail, rfl⟩
  rcases h.cases with ⟨d, tail, heq, _⟩ | ⟨d, tail, heq, _, htail⟩
  · simp only [List.cons_append, List.cons.injEq] at heq
    exact absurd heq.2.1 fun hsecond => hmark (by simp [hsecond])
  · simp only [List.cons_append, List.cons.injEq] at heq
    exact htail c (heq.2 ▸ by simp)

/-- A word of the grammar stands in front of a name only if it is the name. -/
theorem IsWholeName.begins_with_word {name behind word : List Char} (h : IsWholeName name)
    (hbreaks : Breaks behind) (hword : ∀ c ∈ word, isNameNext c = true) (hlong : 2 ≤ word.length) :
    beginsWithWord word (name ++ behind) = decide (word = name) := by
  have hmark : '#' ∉ word := fun hmem => absurd (hword '#' hmem) (by decide)
  rw [Bool.eq_iff_iff, begins_with_word_iff, decide_eq_true_iff]
  constructor
  · rintro ⟨tail, heq, hend⟩
    rcases List.append_eq_append_iff.1 heq with ⟨more, rfl, hbehind⟩ | ⟨more, rfl, htail⟩
    · cases more with
      | nil => exact List.append_nil name
      | cons c more =>
          have hnext := hword c (by simp)
          exact absurd (hbreaks.not_name_next c (by rw [hbehind]; rfl)) (by simp [hnext])
    · cases more with
      | nil => exact (List.append_nil word).symm
      | cons c more =>
          have hnext := h.of_append hmark hlong
          exact absurd (hend c (by rw [htail]; rfl)) (by simp [hnext])
  · rintro rfl
    exact ⟨behind, rfl, hbreaks.not_name_next⟩

/-! ## Lifetimes -/

theorem IsWholeLifetime.cons {text : List Char} (h : IsWholeLifetime text) :
    ∃ rest, text = '\'' :: rest ∧ IsWholeName rest := by
  unfold IsWholeLifetime lifetime? at h
  split at h
  · rename_i rest
    obtain ⟨n, hn, hlength⟩ := Option.map_eq_some_iff.1 h
    rw [List.length_cons, Nat.add_right_cancel_iff] at hlength
    subst hlength
    exact ⟨rest, rfl, hn⟩
  · cases h

theorem IsWholeLifetime.no_bracket {text : List Char} (h : IsWholeLifetime text) : '<' ∉ text := by
  obtain ⟨rest, rfl, hname⟩ := h.cons
  simpa using hname.no_bracket

/-- What does not run together with a lifetime does not go on with its name. -/
theorem IsWholeLifetime.apart {lifetime next : List Char} (h : IsWholeLifetime lifetime)
    (hapart : runTogether lifetime next = false) : next.head?.any isNameNext = false := by
  obtain ⟨name, rfl, hname⟩ := h.cons
  have hlast : ('\'' :: name).getLast? = name.getLast? := by
    cases name with
    | nil => exact absurd rfl hname.ne_nil
    | cons c rest => exact List.getLast?_cons_cons
  rwa [runTogether, hlast, hname.last_next, Bool.true_and] at hapart

theorem IsWholeLifetime.lifetime_in_front {lifetime behind : List Char}
    (h : IsWholeLifetime lifetime) (hbreaks : Breaks behind) :
    lifetime? (lifetime ++ behind) = some lifetime.length := by
  obtain ⟨name, rfl, hname⟩ := h.cons
  rw [List.cons_append, lifetime?, hname.name_in_front hbreaks]
  rfl

/-- A name begins with no quote or backslash, and no quote stands behind its first character. -/
theorem IsWholeName.no_quote {name behind : List Char} (h : IsWholeName name)
    (hbreaks : Breaks behind) : ∃ c rest, name ++ behind = c :: rest ∧ isNameStart c = true ∧
      rest.head? ≠ some '\'' := by
  rcases h.cases with ⟨c, rest, rfl, hc, hrest⟩ | ⟨c, rest, rfl, hc, hrest⟩
  · exact ⟨'r', _, rfl, by decide, by simp⟩
  · refine ⟨c, rest ++ behind, rfl, hc, ?_⟩
    cases rest with
    | nil => exact hbreaks.ne (by decide)
    | cons d rest =>
        intro hd
        cases hd
        exact absurd (hrest '\'' (List.mem_cons_self ..)) (by decide)

/-- A lifetime is not read as a character. -/
theorem IsWholeLifetime.not_char {lifetime behind : List Char}
    (h : IsWholeLifetime lifetime) (hbreaks : Breaks behind) :
    char? (lifetime ++ behind) = none := by
  obtain ⟨name, rfl, hname⟩ := h.cons
  obtain ⟨c, rest, heq, hc, hrest⟩ := hname.no_quote hbreaks
  rw [List.cons_append, heq]
  show quotedChar? ('\'' :: c :: rest) = none
  rw [quotedChar?.eq_def]
  split
  · rename_i hquote
    simp only [List.cons.injEq, true_and] at hquote
    exact absurd (hquote.1 ▸ hc) (by decide)
  · rename_i hslash
    simp only [List.cons.injEq, true_and] at hslash
    exact absurd (hslash.1 ▸ hc) (by decide)
  · rename_i hsecond
    simp only [List.cons.injEq, true_and] at hsecond
    exact absurd (hsecond.2 ▸ rfl) hrest
  · rfl

/-! ## No literals -/

/-- Whether no literal of the lexical rules begins a text. -/
structure NoLiteral (text : List Char) : Prop where
  string : string? text = none
  char : char? text = none
  float : float? text = none
  integer : integer? text = none

theorem raw_string_none {letters : Nat} {text : List Char} (hmark : text.head? ≠ some '#')
    (hquote : text.head? ≠ some '"') : rawString? letters text = none := by
  cases text with
  | nil => rfl
  | cons c rest =>
      have hc : c ≠ '#' := fun h => hmark (h ▸ rfl)
      rw [rawString?, List.takeWhile_cons_of_neg (by simpa using hc)]
      split
      · rename_i hcons
        exact absurd (congrArg List.head? hcons) hquote
      · rfl

theorem quoted_char_none {text : List Char} (h : text.head? ≠ some '\'') :
    quotedChar? text = none := by
  rw [quotedChar?.eq_def]
  split
  · exact absurd rfl h
  · exact absurd rfl h
  · exact absurd rfl h
  · rfl

theorem digit_not_start {c : Char} (h : isDigit c = true) : isNameStart c = false := by
  have hdigits : ∀ n < 58, isDigit (Char.ofNat n) = true → isNameStart (Char.ofNat n) = false := by
    decide
  have hlt : c.toNat < 58 := by
    simp only [isDigit, Bool.and_eq_true, decide_eq_true_eq, Char.le_def,
      UInt32.le_iff_toNat_le] at h
    exact Nat.lt_of_le_of_lt h.2 (by decide)
  exact Char.ofNat_toNat c ▸ hdigits c.toNat hlt ((Char.ofNat_toNat c).symm ▸ h)

/-- Behind the first letters of a name stand name characters, or what breaks words. -/
theorem head_of_tail {rest behind : List Char} (hrest : ∀ d ∈ rest, isNameNext d = true)
    (hbreaks : Breaks behind) {c : Char} (hnext : isNameNext c = false)
    (hc : breaksWord c = false) : (rest ++ behind).head? ≠ some c := by
  cases rest with
  | nil => exact hbreaks.ne hc
  | cons d rest =>
      intro hd
      cases hd
      exact absurd (hrest c (List.mem_cons_self ..)) (by simp [hnext])

theorem raw_string_none_of_tail {letters : Nat} {rest behind : List Char}
    (hrest : ∀ d ∈ rest, isNameNext d = true) (hbreaks : Breaks behind) :
    rawString? letters (rest ++ behind) = none :=
  raw_string_none (head_of_tail hrest hbreaks (by decide) (by decide))
    (head_of_tail hrest hbreaks (by decide) (by decide))

theorem raw_string_none_of_letter {letters : Nat} {rest behind tail : List Char}
    (hrest : ∀ d ∈ rest, isNameNext d = true) (hbreaks : Breaks behind)
    (htail : rest ++ behind = 'r' :: tail) : rawString? letters tail = none := by
  cases rest with
  | nil => exact absurd (congrArg List.head? htail) (hbreaks.ne (by decide))
  | cons d rest =>
      rw [← (List.cons.inj htail).2]
      exact raw_string_none_of_tail (fun e he => hrest e (List.mem_cons_of_mem _ he)) hbreaks

theorem IsWholeName.string_none {name behind : List Char} (h : IsWholeName name)
    (hbreaks : Breaks behind) : string? (name ++ behind) = none := by
  rcases h.cases with ⟨c, rest, rfl, hc, hrest⟩ | ⟨c, rest, rfl, hc, hrest⟩
  · have hmark : c ≠ '#' := fun h => absurd (h ▸ hc) (by decide)
    show rawString? 1 ('#' :: c :: (rest ++ behind)) = none
    rw [rawString?, List.takeWhile_cons_of_pos (by decide),
      List.takeWhile_cons_of_neg (by simpa using hmark)]
    split
    · rename_i hcons
      exact absurd ((List.cons.inj hcons).1 ▸ hc) (by decide)
    · rfl
  · have hquote := head_of_tail hrest hbreaks (c := '"') (by decide) (by decide)
    rw [List.cons_append, string?.eq_def]
    split
    · rename_i hcons
      exact absurd ((List.cons.inj hcons).1 ▸ hc) (by decide)
    · rename_i hcons
      exact absurd (congrArg List.head? (List.cons.inj hcons).2) hquote
    · rename_i hcons
      exact absurd (congrArg List.head? (List.cons.inj hcons).2) hquote
    · rename_i hcons
      exact raw_string_none_of_letter hrest hbreaks (List.cons.inj hcons).2
    · rename_i hcons
      exact raw_string_none_of_letter hrest hbreaks (List.cons.inj hcons).2
    · rename_i hcons
      exact (List.cons.inj hcons).2 ▸ raw_string_none_of_tail hrest hbreaks
    · rfl

theorem IsWholeName.char_none {name behind : List Char} (h : IsWholeName name)
    (hbreaks : Breaks behind) : char? (name ++ behind) = none := by
  obtain ⟨c, rest, heq, hc, hrest⟩ := h.no_quote hbreaks
  rw [heq, char?.eq_def]
  split
  · rename_i hcons
    rw [← (List.cons.inj hcons).2, quoted_char_none hrest]
    rfl
  · refine quoted_char_none fun hhead => ?_
    cases hhead
    exact absurd hc (by decide)

/-- No number begins with what is no digit. -/
theorem number_none {c : Char} {rest : List Char} (h : isDigit c = false) :
    float? (c :: rest) = none ∧ integer? (c :: rest) = none := by
  refine ⟨by rw [float?, h]; rfl, ?_⟩
  rw [integer?.eq_def]
  dsimp only
  rw [h]
  split
  · rename_i hzero
    exact absurd ((List.cons.inj hzero).1 ▸ h) (by decide)
  · rfl

theorem IsWholeName.no_literal {name behind : List Char} (h : IsWholeName name)
    (hbreaks : Breaks behind) : NoLiteral (name ++ behind) := by
  obtain ⟨c, rest, heq, hc, _⟩ := h.no_quote hbreaks
  have hdigit : isDigit c = false := by
    rw [Bool.eq_false_iff]
    exact fun hdigit => Bool.false_ne_true ((digit_not_start hdigit).symm.trans hc)
  have hnumber := @number_none c rest hdigit
  exact ⟨h.string_none hbreaks, h.char_none hbreaks, heq ▸ hnumber.1, heq ▸ hnumber.2⟩

/-- The brackets and the sign that begin types. -/
def typeSigns : List Char :=
  ['(', '[', '&']

/-- No literal begins with a bracket of a type or the sign of a reference. -/
theorem no_literal_of_sign {c : Char} (hc : c ∈ typeSigns) (rest : List Char) :
    NoLiteral (c :: rest) := by
  simp only [typeSigns, List.mem_cons, List.not_mem_nil, or_false] at hc
  rcases hc with rfl | rfl | rfl <;> exact ⟨rfl, rfl, rfl, rfl⟩

/-! ## Signs -/

theorem sign_begins (text : List Char) : sign text <+: text := by
  unfold sign
  cases hfind : longSigns.find? (·.isPrefixOf text) with
  | none => exact List.take_prefix 1 text
  | some found => simpa using List.find?_some hfind

/-- No sign stands where its first character does not. -/
theorem sign_ne {text rest : List Char} {c : Char} (h : text.head? ≠ some c) :
    sign text ≠ c :: rest := by
  intro hsign
  obtain ⟨behind, hbehind⟩ := hsign ▸ sign_begins text
  exact h (hbehind ▸ rfl)

/-! ## Integers -/

theorem drop_take_while_length (p : Char → Bool) (text : List Char) :
    text.drop (text.takeWhile p).length = text.dropWhile p := by
  have hsplit := congrArg (List.drop (text.takeWhile p).length)
    (List.takeWhile_append_dropWhile (p := p) (l := text))
  rw [List.drop_left] at hsplit
  exact hsplit.symm

theorem Breaks.not_digit {behind : List Char} (h : Breaks behind) (base : Char) :
    ∀ c ∈ behind.head?, isDigitOf base c = false := by
  intro c hc
  rw [Bool.eq_false_iff]
  exact fun hdigit => Bool.false_ne_true
    ((h.not_name_next c hc).symm.trans (name_next_of_digit hdigit))

/-- What breaks words is no part of the type behind an integer. -/
theorem suffix_length_in_front {text behind : List Char} (h : Breaks behind) :
    suffixLength (text ++ behind) = suffixLength text := by
  have hchars : ∀ suffix ∈ numberSuffixes, ∀ c ∈ suffix, isNameNext c = true := by decide
  have hsame : ∀ suffix ∈ numberSuffixes,
      suffix.isPrefixOf (text ++ behind) = suffix.isPrefixOf text := by
    intro suffix hsuffix
    rw [Bool.eq_iff_iff, List.isPrefixOf_iff_prefix, List.isPrefixOf_iff_prefix]
    refine ⟨fun hbegins => ?_, fun hbegins => hbegins.trans (List.prefix_append ..)⟩
    obtain ⟨tail, heq⟩ := hbegins
    rcases List.append_eq_append_iff.1 heq with ⟨more, rfl, _⟩ | ⟨more, rfl, hbehind⟩
    · exact List.prefix_append ..
    · cases more with
      | nil => exact ⟨[], by rw [List.append_nil, List.append_nil]⟩
      | cons c more =>
          have hnext := hchars _ hsuffix c (by simp)
          exact absurd (h.not_name_next c (by rw [hbehind]; rfl)) (by simp [hnext])
  unfold suffixLength
  rw [List.find?_congr hsame]

theorem IsWholeInteger.no_bracket {text : List Char} (h : IsWholeInteger text) : '<' ∉ text := by
  intro hmem
  have hnext := integer_chars h '<' (by rwa [List.take_length])
  exact absurd hnext (by decide)

/-- The number of digits and underscores of a decimal integer. -/
def plainDigits (text : List Char) : Option Nat :=
  match text with
  | c :: _ => if isDigit c then some (text.takeWhile (isDigitOf 'd')).length else none
  | [] => none

/-- The length of an integer without the type behind it. -/
def digitsLength (text : List Char) : Option Nat :=
  match text with
  | '0' :: base :: rest =>
    if (base = 'x' ∨ base = 'b' ∨ base = 'o') ∧ 0 < (rest.takeWhile (isDigitOf base)).length then
      some (2 + (rest.takeWhile (isDigitOf base)).length)
    else plainDigits text
  | _ => plainDigits text

theorem integer_eq (text : List Char) :
    integer? text = (digitsLength text).map fun n => n + suffixLength (text.drop n) :=
  rfl

/-- The two forms of the digits of an integer. -/
theorem digits_cases {text : List Char} {n : Nat} (h : digitsLength text = some n) :
    (∃ base rest, text = '0' :: base :: rest ∧ (base = 'x' ∨ base = 'b' ∨ base = 'o') ∧
      0 < (rest.takeWhile (isDigitOf base)).length ∧
      n = 2 + (rest.takeWhile (isDigitOf base)).length) ∨
    (plainDigits text = some n ∧ ∀ base rest, text = '0' :: base :: rest →
      ¬ ((base = 'x' ∨ base = 'b' ∨ base = 'o') ∧ 0 < (rest.takeWhile (isDigitOf base)).length)) := by
  unfold digitsLength at h
  split at h
  · rename_i base rest
    split at h
    · rename_i hbase
      exact .inl ⟨base, rest, rfl, hbase.1, hbase.2, (Option.some.inj h).symm⟩
    · rename_i hbase
      refine .inr ⟨h, fun other tail heq => ?_⟩
      simp only [List.cons.injEq, true_and] at heq
      rwa [← heq.1, ← heq.2]
  · rename_i hnot
    exact .inr ⟨h, fun base rest heq => absurd heq (hnot base rest)⟩

theorem plain_digits_eq_some {text : List Char} {n : Nat} (h : plainDigits text = some n) :
    ∃ c rest, text = c :: rest ∧ isDigit c = true ∧ n = (text.takeWhile (isDigitOf 'd')).length := by
  unfold plainDigits at h
  split at h
  · rename_i c rest
    split at h
    · exact ⟨c, rest, rfl, ‹_›, (Option.some.inj h).symm⟩
    · cases h
  · cases h

theorem digits_length_le {text : List Char} {n : Nat} (h : digitsLength text = some n) :
    n ≤ text.length := by
  rcases digits_cases h with ⟨base, rest, rfl, _, _, rfl⟩ | ⟨hplain, _⟩
  · have hle := (List.takeWhile_prefix (isDigitOf base) (l := rest)).length_le
    simp only [List.length_cons]
    omega
  · obtain ⟨_, _, _, _, rfl⟩ := plain_digits_eq_some hplain
    exact (List.takeWhile_prefix _).length_le

theorem digits_in_front {text behind : List Char} {n : Nat} (h : digitsLength text = some n)
    (hbreaks : Breaks behind) : digitsLength (text ++ behind) = some n := by
  have hrun (base : Char) (text : List Char) :
      (text ++ behind).takeWhile (isDigitOf base) = text.takeWhile (isDigitOf base) :=
    take_while_in_front (hbreaks.not_digit base)
  rcases digits_cases h with ⟨base, rest, rfl, hbase, hpos, rfl⟩ | ⟨hplain, hnot⟩
  · rw [← hrun base rest] at hpos ⊢
    exact if_pos ⟨hbase, hpos⟩
  · obtain ⟨c, rest, rfl, hc, rfl⟩ := plain_digits_eq_some hplain
    have hplain : plainDigits (c :: rest ++ behind) =
        some ((c :: rest).takeWhile (isDigitOf 'd')).length := by
      rw [← hrun 'd' (c :: rest)]
      exact if_pos hc
    rw [← hplain, digitsLength.eq_def]
    split
    · rename_i base tail heq
      refine if_neg fun ⟨hbase, hpos⟩ => ?_
      cases rest with
      | nil =>
          -- Nothing of a base is left for what breaks words.
          have hhead : behind.head? = some base := congrArg List.head? (List.cons.inj heq).2
          rcases hbase with rfl | rfl | rfl <;> exact hbreaks.ne (by decide) hhead
      | cons d rest =>
          simp only [List.cons_append, List.cons.injEq] at heq
          obtain ⟨rfl, rfl, rfl⟩ := heq
          exact hnot d rest rfl ⟨hbase, hrun d rest ▸ hpos⟩
    · rfl

/-- An integer is read to its end in front of what breaks words. -/
theorem IsWholeInteger.integer_in_front {text behind : List Char} (h : IsWholeInteger text)
    (hbreaks : Breaks behind) : integer? (text ++ behind) = some text.length := by
  rw [IsWholeInteger, integer_eq, Option.map_eq_some_iff] at h
  obtain ⟨n, hdigits, hlength⟩ := h
  rw [integer_eq, digits_in_front hdigits hbreaks, Option.map_some,
    List.drop_append_of_le_length (digits_length_le hdigits), suffix_length_in_front hbreaks, hlength]

/-- A text that is read as the type behind an integer as a whole is one, or nothing. -/
theorem suffix_of_length {text : List Char} (h : suffixLength text = text.length) :
    text = [] ∨ text ∈ numberSuffixes := by
  unfold suffixLength at h
  cases hfind : numberSuffixes.find? (·.isPrefixOf text) with
  | none =>
      rw [hfind] at h
      exact .inl (List.length_eq_zero_iff.1 h.symm)
  | some suffix =>
      rw [hfind] at h
      have hbegins : suffix <+: text := by simpa using List.find?_some hfind
      exact .inr (hbegins.eq_of_length h ▸ List.mem_of_find?_eq_some hfind)

/-- Behind the decimal digits of an integer stands the mark of its base or its type, if anything. -/
theorem IsWholeInteger.tail {text : List Char} (h : IsWholeInteger text) :
    ∀ c ∈ (text.dropWhile (isDigitOf 'd')).head?, c ∈ ['x', 'b', 'o', 'u', 'i', 'f'] := by
  rw [IsWholeInteger, integer_eq, Option.map_eq_some_iff] at h
  obtain ⟨n, hdigits, hlength⟩ := h
  rcases digits_cases hdigits with ⟨base, rest, rfl, hbase, _, rfl⟩ | ⟨hplain, _⟩
  · have hmark : isDigitOf 'd' base = false ∧ base ∈ ['x', 'b', 'o', 'u', 'i', 'f'] := by
      rcases hbase with rfl | rfl | rfl <;> decide
    rw [List.dropWhile_cons_of_pos (by decide), List.dropWhile_cons_of_neg (by simp [hmark.1])]
    intro c hc
    cases hc
    exact hmark.2
  · obtain ⟨_, _, _, _, rfl⟩ := plain_digits_eq_some hplain
    have hsuffixes : ∀ suffix ∈ numberSuffixes,
        suffix.head? = some 'u' ∨ suffix.head? = some 'i' ∨ suffix.head? = some 'f' := by decide
    rw [drop_take_while_length] at hlength
    have hall : suffixLength (text.dropWhile (isDigitOf 'd')) =
        (text.dropWhile (isDigitOf 'd')).length := by
      have hsplit := congrArg List.length
        (List.takeWhile_append_dropWhile (p := isDigitOf 'd') (l := text))
      rw [List.length_append] at hsplit
      omega
    intro c hc
    rcases suffix_of_length hall with hnil | hsuffix
    · rw [hnil] at hc
      cases hc
    · rcases hsuffixes _ hsuffix with hhead | hhead | hhead <;>
        · rw [hhead] at hc
          cases hc
          decide

theorem float_none_of_tail {text : List Char} (h : ∀ c ∈ (text.dropWhile (isDigitOf 'd')).head?,
    c ≠ '.' ∧ c ≠ 'e' ∧ c ≠ 'E') : float? text = none := by
  cases text with
  | nil => rfl
  | cons first rest =>
      rw [← drop_take_while_length] at h
      rw [float?]
      generalize ((first :: rest).takeWhile (isDigitOf 'd')).length = whole at h ⊢
      split
      · rfl
      have hexponent : exponentLength ((first :: rest).drop whole) = none := by
        generalize (first :: rest).drop whole = tail at h ⊢
        cases tail with
        | nil => rfl
        | cons c tail =>
            have hc := h c rfl
            exact if_neg (by simp [hc.2.1, hc.2.2])
      dsimp only
      split
      · rfl
      · rename_i places hplaces
        split at hplaces
        · rename_i hpoint
          exact absurd rfl (h '.' (by rw [hpoint]; rfl)).1
        · cases hplaces
          simp only [Option.getD_none, Nat.add_zero, hexponent]
          rfl

/-- An integer is not read as a floating-point number. -/
theorem IsWholeInteger.float_none {text behind : List Char} (h : IsWholeInteger text)
    (hbreaks : Breaks behind) (hpoint : behind.head? ≠ some '.') : float? (text ++ behind) = none := by
  refine float_none_of_tail fun c hc => ?_
  have hsplit : (text ++ behind).dropWhile (isDigitOf 'd') =
      text.dropWhile (isDigitOf 'd') ++ behind := by
    rw [← drop_take_while_length, take_while_in_front (hbreaks.not_digit 'd'),
      List.drop_append_of_le_length (List.takeWhile_prefix _).length_le, drop_take_while_length]
  rw [hsplit] at hc
  generalize htail : text.dropWhile (isDigitOf 'd') = tail at hc
  cases tail with
  | nil =>
      refine ⟨fun hdot => hpoint (hdot ▸ hc), fun he => ?_, fun he => ?_⟩
      · exact hbreaks.ne (by decide) (he ▸ hc)
      · exact hbreaks.ne (by decide) (he ▸ hc)
  | cons d tail =>
      have hmem := h.tail c (htail ▸ hc)
      refine ⟨?_, ?_, ?_⟩ <;> rintro rfl <;> exact absurd hmem (by decide)

end Lexical

end ProgramInterface
