import ProgramInterface.Proofs.Yaml.Token
import ProgramInterface.Yaml.Writer

/-!
# Writing texts without escapes

A text is written run by run: words, spaces and line ends. What is written without quotes and between
single quotes is a spelling of the text (`add_plain_spelled`, `add_single_spelled`).
-/

namespace ProgramInterface

namespace Yaml

namespace Output

/-! ## Lines -/

/-- A line becomes another by going on with some characters. -/
def GoesOn (line : Line) (w : List Char) (after : Line) : Prop :=
  after.done = (Text.ofChars w).reverse ++ line.done

namespace GoesOn

variable {line middle after : Line} {v w : List Char}

theorem refl (line : Line) : GoesOn line [] line := rfl

theorem trans (h : GoesOn line v middle) (hnext : GoesOn middle w after) :
    GoesOn line (v ++ w) after := by
  rw [GoesOn, hnext, h]
  simp [Text.ofChars]

theorem add (line : Line) (w : List Char) : GoesOn line w (line.add (Text.ofChars w)) := rfl

theorem next_line (line : Line) (indent : Nat) :
    GoesOn line ('\n' :: spaces indent) (line.break indent) := by
  simp [GoesOn, Line.break, Text.ofChars]

end GoesOn

/-! ## Runs -/

/-- Whether some code points are those of one class at the head of a text, and `rest` what follows. -/
structure IsRun (classOf : CodePoint → Nat) (k : Nat) (run rest : Text) : Prop where
  ne_nil : run ≠ []
  same : ∀ c ∈ run, classOf c = k
  ends : ∀ c ∈ rest.head?, classOf c ≠ k

variable {classOf : CodePoint → Nat}

theorem exists_run (classOf : CodePoint → Nat) (c : CodePoint) (t : Text) :
    ∃ run rest, c :: t = run ++ rest ∧ IsRun classOf (classOf c) run rest := by
  induction t generalizing c with
  | nil => exact ⟨[c], [], rfl, by simp, by simp, nofun⟩
  | cons d t ih =>
      by_cases hd : classOf d = classOf c
      · obtain ⟨run, rest, ht, hrun⟩ := ih d
        refine ⟨c :: run, rest, congrArg (c :: ·) ht, by simp, ?_, hd ▸ hrun.ends⟩
        exact List.forall_mem_cons.2 ⟨rfl, hd ▸ hrun.same⟩
      · exact ⟨[c], d :: t, rfl, by simp, by simp, by simpa using hd⟩

theorem runs_cons (classOf : CodePoint → Nat) (c : CodePoint) (t : Text) :
    ∃ run rest, runs classOf (c :: t) = (classOf c, run) :: rest := by
  rw [runs]
  split
  · split
    · rename_i hclass
      exact ⟨_, _, by rw [hclass]⟩
    · exact ⟨_, _, rfl⟩
  · exact ⟨_, _, rfl⟩

/-- The first run of a text is the first of its runs. -/
theorem runs_append {k : Nat} {run rest : Text} (h : IsRun classOf k run rest) :
    runs classOf (run ++ rest) = (k, run) :: runs classOf rest := by
  obtain ⟨hne, hsame, hends⟩ := h
  induction run with
  | nil => contradiction
  | cons c run ih =>
      obtain ⟨rfl, hrun⟩ := List.forall_mem_cons.1 hsame
      rw [List.cons_append, runs]
      cases run with
      | nil =>
          cases rest with
          | nil => rfl
          | cons d rest =>
              obtain ⟨first, others, hruns⟩ := runs_cons classOf d rest
              have hd : classOf c ≠ classOf d := (hends d rfl).symm
              rw [List.nil_append, hruns]
              simp [hd]
      | cons d run =>
          rw [ih (by simp) hrun]
          simp

/-- What holds of no text, and of a text if it holds of it without its first run, holds of all. -/
theorem runs_induction {motive : Text → Prop} (classOf : CodePoint → Nat) (nil : motive [])
    (append : ∀ k run rest, IsRun classOf k run rest → motive rest → motive (run ++ rest)) (t : Text) :
    motive t := by
  induction hlength : t.length using Nat.strongRecOn generalizing t with
  | ind n ih =>
      cases t with
      | nil => exact nil
      | cons c t =>
          obtain ⟨run, rest, ht, hrun⟩ := exists_run classOf c t
          rw [ht] at hlength ⊢
          have hpos := List.length_pos_iff.2 hrun.ne_nil
          rw [List.length_append] at hlength
          exact append _ _ _ hrun (ih rest.length (by omega) rest rfl)

/-! ## Classes of code points -/

/-- An ordinary code point is a space, a line feed or a visible character. -/
theorem ordinary_cases {c : CodePoint} (h : isOrdinary c = true) :
    c = .scalar ' ' ∨ c = .scalar '\n' ∨ ∃ char, c = .scalar char ∧ isInk char = true := by
  simp only [isOrdinary, Bool.or_eq_true, decide_eq_true_eq, Bool.and_eq_true] at h
  rcases h with hfeed | ⟨hleast, hmost⟩
  · exact .inr (.inl hfeed)
  · cases c with
    | surrogate index =>
        simp only [CodePoint.val] at hmost
        omega
    | scalar char =>
        by_cases hspace : char = ' '
        · exact .inl (congrArg _ hspace)
        · have hne : char.toNat ≠ 0x20 := fun heq => hspace (Char.toNat_inj.1 heq)
          have hleast : 0x20 ≤ char.toNat := hleast
          have hlow : '!' ≤ char := show 0x21 ≤ char.toNat by omega
          have hhigh : char ≤ '~' := hmost
          exact .inr (.inr ⟨char, rfl, by simp [isInk, hlow, hhigh]⟩)

theorem ends_line_of_ink {c : Char} (h : isInk c = true) : endsLine (.scalar c) = false := by
  have hbreak := not_break_of_inline (inline_of_ink h)
  simp only [isBreak, Bool.or_eq_false_iff, decide_eq_false_iff_not] at hbreak
  simp [endsLine, hbreak]

theorem not_space_of_ink {c : Char} (h : isInk c = true) : isSpace (.scalar c) = false := by
  have hblank := not_blank_of_ink h
  simp only [isBlank, isSpaceOrBreak, Bool.or_eq_false_iff, decide_eq_false_iff_not] at hblank
  simp [isSpace, hblank]

theorem class_of_ink {c : Char} (h : isInk c = true) : runClass (.scalar c) = 2 := by
  simp [runClass, ends_line_of_ink h, not_space_of_ink h]

theorem eq_space_of_class {c : CodePoint} (h : isOrdinary c = true) (hclass : runClass c = 0) :
    c = .scalar ' ' := by
  rcases ordinary_cases h with rfl | rfl | ⟨char, rfl, hink⟩
  · rfl
  · cases hclass
  · rw [class_of_ink hink] at hclass
    cases hclass

theorem eq_feed_of_class {c : CodePoint} (h : isOrdinary c = true) (hclass : runClass c = 1) :
    c = .scalar '\n' := by
  rcases ordinary_cases h with rfl | rfl | ⟨char, rfl, hink⟩
  · cases hclass
  · rfl
  · rw [class_of_ink hink] at hclass
    cases hclass

theorem ink_of_class {c : CodePoint} (h : isOrdinary c = true) (hclass : runClass c = 2) :
    ∃ char, .scalar char = c ∧ isInk char = true := by
  rcases ordinary_cases h with rfl | rfl | ⟨char, rfl, hink⟩
  · cases hclass
  · cases hclass
  · exact ⟨char, rfl, hink⟩

theorem chars_of_ink {run : Text} (h : ∀ c ∈ run, ∃ char, .scalar char = c ∧ isInk char = true) :
    ∃ word, run = Text.ofChars word ∧ ∀ c ∈ word, isInk c = true := by
  induction run with
  | nil => exact ⟨[], rfl, nofun⟩
  | cons c run ih =>
      obtain ⟨⟨char, rfl, hink⟩, hrun⟩ := List.forall_mem_cons.1 h
      obtain ⟨word, rfl, hword⟩ := ih hrun
      exact ⟨char :: word, rfl, List.forall_mem_cons.2 ⟨hink, hword⟩⟩

theorem chars_of_repeated {run : Text} {char : Char} (hne : run ≠ [])
    (h : ∀ c ∈ run, c = .scalar char) :
    ∃ n, run = Text.ofChars (List.replicate (n + 1) char) := by
  refine ⟨run.length - 1, ?_⟩
  rw [Nat.sub_add_cancel (List.length_pos_iff.2 hne), Text.ofChars, List.map_replicate]
  exact List.eq_replicate_of_mem h

/-- A run of ordinary code points is one of spaces, of line feeds or of visible characters. -/
theorem IsRun.cases {k : Nat} {run rest : Text} (h : IsRun runClass k run rest)
    (hordinary : ∀ c ∈ run, isOrdinary c = true) :
    (k = 0 ∧ ∃ n, run = Text.ofChars (spaces (n + 1))) ∨
    (k = 1 ∧ ∃ n, run = Text.ofChars (List.replicate (n + 1) '\n')) ∨
    (k = 2 ∧ ∃ word, run = Text.ofChars word ∧ ∀ c ∈ word, isInk c = true) := by
  obtain ⟨hne, hsame, -⟩ := h
  obtain ⟨first, hfirst⟩ := List.exists_mem_of_ne_nil run hne
  have hk : k = 0 ∨ k = 1 ∨ k = 2 := by
    rw [← hsame first hfirst]
    rcases ordinary_cases (hordinary first hfirst) with rfl | rfl | ⟨char, rfl, hink⟩
    · exact .inl rfl
    · exact .inr (.inl rfl)
    · exact .inr (.inr (class_of_ink hink))
  rcases hk with rfl | rfl | rfl
  · exact .inl ⟨rfl, chars_of_repeated hne fun c hc => eq_space_of_class (hordinary c hc) (hsame c hc)⟩
  · exact .inr (.inl ⟨rfl, chars_of_repeated hne fun c hc =>
      eq_feed_of_class (hordinary c hc) (hsame c hc)⟩)
  · exact .inr (.inr ⟨rfl, chars_of_ink fun c hc => ink_of_class (hordinary c hc) (hsame c hc)⟩)

/-! ## Without quotes -/

/-- Where a text stays plain, so does what follows its first code points. -/
theorem stays_plain_append {run rest : Text} {behindBlank : Bool} (last : CodePoint)
    (h : staysPlain behindBlank (run ++ rest) = true)
    (hlast : run.getLast? = some last) :
    staysPlain (isBlankPoint last) rest = true ∧ (last = .scalar ':' → blankFollows rest = false) := by
  induction run generalizing behindBlank with
  | nil => cases hlast
  | cons c run ih =>
      rw [List.cons_append, staysPlain, Bool.and_eq_true, Bool.and_eq_true] at h
      cases run with
      | nil =>
          cases hlast
          refine ⟨h.2, ?_⟩
          rintro rfl
          simpa using h.1.1
      | cons d run => exact ih h.2 (by simpa using hlast)

/-- Whether a text can be written plain behind a word or some spaces. -/
structure PlainTail (t : Text) : Prop where
  ordinary : ∀ c ∈ t, isOrdinary c = true
  ends : ∀ c ∈ t, endsLine c = false
  last : ¬ [.scalar ' '] <:+ t

theorem PlainTail.of_append {run rest : Text} (h : PlainTail (run ++ rest)) : PlainTail rest where
  ordinary := (List.forall_mem_append.1 h.ordinary).2
  ends := (List.forall_mem_append.1 h.ends).2
  last hlast := h.last (List.suffix_append_of_suffix hlast)

/-- A text that can be written plain begins with a space or with a visible character. -/
theorem PlainTail.head_cases {t : Text} (h : PlainTail t) :
    t = [] ∨ t.head? = some (.scalar ' ') ∨ ∃ c, t.head? = some c ∧ runClass c = 2 := by
  cases t with
  | nil => exact .inl rfl
  | cons c t =>
      rcases ordinary_cases (h.ordinary c (List.mem_cons_self ..)) with rfl | rfl | ⟨char, rfl, hink⟩
      · exact .inr (.inl rfl)
      · exact absurd (h.ends _ (List.mem_cons_self ..)) (by decide)
      · exact .inr (.inr ⟨_, rfl, class_of_ink hink⟩)

theorem word_of_run {word : List Char} {rest : Text} (hne : word ≠ [])
    (hink : ∀ c ∈ word, isInk c = true) (hrest : blankFollows rest = true)
    (h : staysPlain true (Text.ofChars word ++ rest) = true) : IsWord word where
  ne_nil := hne
  ink := hink
  head hhead := by
    obtain ⟨c, word, rfl⟩ := List.exists_cons_of_ne_nil hne
    cases hhead
    simp [Text.ofChars, staysPlain] at h
  last hlast := by
    have hlast : (Text.ofChars word).getLast? = some (.scalar ':') := by
      simp [Text.ofChars, List.getLast?_map, hlast]
    rw [(stays_plain_append _ h hlast).2 rfl] at hrest
    cases hrest

/-- The spaces between two words are written as they are, or a single one as a line end. -/
theorem add_plain_gap (indent n : Nat) (line : Line) :
    ∃ gap next, GoesOn line gap next ∧
      (∀ rs, addPlain indent line ((0, Text.ofChars (spaces (n + 1))) :: rs) =
        addPlain indent next rs) ∧
      ∀ {word t w : List Char}, IsWord word → PlainSpelled indent t w →
        PlainSpelled indent (word ++ (spaces (n + 1) ++ t)) (word ++ (gap ++ w)) := by
  by_cases hfold : (0 : Nat) = 0 ∧ (Text.ofChars (spaces (n + 1))).length = 1 ∧
      bestWidth < line.column
  · have hn : n = 0 := by simpa [Text.ofChars] using hfold.2.1
    subst hn
    exact ⟨_, _, GoesOn.next_line line indent, fun rs => by rw [addPlain, if_pos hfold],
      fun hword h => .fold hword h⟩
  · exact ⟨_, _, GoesOn.add line _, fun rs => by rw [addPlain, if_neg hfold],
      fun hword h => .spaces n hword h⟩

/-- What is written plain is a spelling of the text, or of what follows a word. A gap is spelled
together with the words on both sides of it, so a text that begins with a gap is no spelling on its
own. -/
theorem add_plain_tail (indent : Nat) (t : Text) (h : PlainTail t) {behindBlank : Bool}
    (hplain : staysPlain behindBlank t = true) (line : Line) :
    ∃ content w, t = Text.ofChars content ∧ GoesOn line w (addPlain indent line (runs runClass t)) ∧
      (behindBlank = true → (∃ c, t.head? = some c ∧ runClass c = 2) →
        PlainSpelled indent content w) ∧
      ((∀ c ∈ t.head?, runClass c ≠ 2) →
        ∀ word, IsWord word → PlainSpelled indent (word ++ content) (word ++ w)) := by
  induction t using runs_induction runClass generalizing line behindBlank with
  | nil => exact ⟨[], [], rfl, GoesOn.refl line, nofun, fun _ word hword => by simpa using .word hword⟩
  | append k run rest hrun ih =>
      have hrest := h.of_append
      rw [runs_append hrun]
      rcases hrun.cases (List.forall_mem_append.1 h.ordinary).1 with
        ⟨rfl, n, rfl⟩ | ⟨rfl, n, rfl⟩ | ⟨rfl, word, rfl, hink⟩
      -- Spaces: a word follows them, for the text does not end with a space.
      · have hvisible : ∃ c, rest.head? = some c ∧ runClass c = 2 := by
          rcases hrest.head_cases with rfl | hspace | hvisible
          · refine absurd ⟨Text.ofChars (spaces n), ?_⟩ h.last
            simp [Text.ofChars, List.replicate_succ']
          · exact absurd rfl (hrun.ends _ hspace)
          · exact hvisible
        have hstays := (stays_plain_append (.scalar ' ') hplain (by
          simp [Text.ofChars, List.getLast?_replicate])).1
        obtain ⟨gap, next, hgap, hadd, hjoin⟩ := add_plain_gap indent n line
        obtain ⟨content, w, rfl, hgoes, hspelled, -⟩ := ih hrest hstays next
        refine ⟨spaces (n + 1) ++ content, gap ++ w, by simp [Text.ofChars], ?_, ?_,
          fun _ word hword => hjoin hword (hspelled rfl hvisible)⟩
        · rw [hadd]
          exact hgap.trans hgoes
        · rintro - ⟨c, ⟨⟩, ⟨⟩⟩
      · have hfeed := h.ends (.scalar '\n') (by simp [Text.ofChars, List.replicate_succ])
        cases hfeed
      -- A word: a gap or nothing follows it, so the second half of the induction hypothesis applies.
      · obtain ⟨last, hlast⟩ := Option.isSome_iff_exists.1 (List.getLast?_isSome.2 hrun.ne_nil)
        obtain ⟨content, w, rfl, hgoes, -, hspelled⟩ :=
          ih hrest (stays_plain_append last hplain hlast).1 (line.add (Text.ofChars word))
        have hne : word ≠ [] := fun heq => hrun.ne_nil (by rw [heq]; rfl)
        refine ⟨word ++ content, word ++ w, by simp [Text.ofChars], ?_, ?_, fun hclass => ?_⟩
        · rw [addPlain, if_neg (by simp)]
          exact (GoesOn.add line word).trans hgoes
        · rintro rfl -
          refine hspelled hrun.ends word (word_of_run hne hink ?_ hplain)
          rcases hrest.head_cases with heq | hspace | ⟨c, hc, hclass⟩
          · rw [heq]
            rfl
          · rw [blankFollows, hspace]
            rfl
          · exact absurd hclass (hrun.ends c hc)
        · obtain ⟨c, word, rfl⟩ := List.exists_cons_of_ne_nil hne
          exact absurd (class_of_ink (hink c (List.mem_cons_self ..))) (hclass _ rfl)

theorem starts_plain_of_begins {content : List Char} (hne : content ≠ [])
    (h : beginsPlain (Text.ofChars content) = true)
    (hordinary : ∀ c ∈ Text.ofChars content, isOrdinary c = true) :
    Scanner.startsPlain content = true := by
  obtain ⟨c, rest, rfl⟩ := List.exists_cons_of_ne_nil hne
  have hindicators : ∀ d ∈ Scanner.indicators, leading.contains d = true ∨ d ∈ ['-', '?', ':'] := by
    decide
  have hbegins : leading.contains c = false ∧
      (c ∈ ['-', '?', ':'] → blankFollows (Text.ofChars rest) = false) := by
    simp only [Text.ofChars, List.map_cons, beginsPlain, CodePoint.char?, Option.any_some,
      Bool.and_eq_true, Bool.not_eq_true'] at h
    refine ⟨h.1, fun hc => ?_⟩
    simp only [List.mem_cons, List.not_mem_nil, or_false] at hc
    obtain rfl | rfl | rfl := hc <;> simpa [Text.ofChars] using h.2
  rw [Scanner.startsPlain]
  -- Three of the indicators may begin a plain scalar, if no blank follows.
  by_cases hc : c ∈ Scanner.indicators
  · rcases hindicators c hc with hleading | hmark
    · rw [hbegins.1] at hleading
      cases hleading
    · have hblank := hbegins.2 hmark
      cases rest with
      | nil => cases hblank
      | cons d rest =>
          have hd : isBlankPoint (.scalar d) = false := hblank
          rcases ordinary_cases (hordinary (.scalar d) (by simp [Text.ofChars])) with
            heq | heq | ⟨char, heq, hink⟩
          · rw [heq] at hd
            cases hd
          · rw [heq] at hd
            cases hd
          · cases heq
            rw [List.contains_iff_mem.2 hmark]
            simp [hink]
  · simp [hc]

/-- What is written plain is a spelling of the text. -/
theorem add_plain_spelled {t : Text} (h : allowsPlain t = true) (hne : t ≠ []) (indent : Nat)
    (line : Line) :
    ∃ content w, t = Text.ofChars content ∧ PlainSpelled indent content w ∧
      Scanner.startsPlain content = true ∧
      GoesOn line w (addPlain indent line (runs runClass t)) := by
  simp only [allowsPlain, List.drop_zero, Bool.and_eq_true, Bool.not_eq_true', List.all_eq_true] at h
  obtain ⟨⟨⟨⟨⟨⟨hordinary, hends⟩, hfirst⟩, hlast⟩, -⟩, hbegins⟩, hstays⟩ := h
  have htail : PlainTail t := by
    refine ⟨hordinary, fun c hc => by simpa using List.any_eq_false.1 hends c hc, ?_⟩
    rintro ⟨s, rfl⟩
    simp [isSpace] at hlast
  obtain ⟨content, w, rfl, hgoes, hspelled, -⟩ := add_plain_tail indent t htail hstays line
  have hvisible : ∃ c, (Text.ofChars content).head? = some c ∧ runClass c = 2 := by
    rcases htail.head_cases with heq | hspace | hvisible
    · exact absurd heq hne
    · rw [hspace] at hfirst
      cases hfirst
    · exact hvisible
  exact ⟨content, w, rfl, hspelled rfl hvisible,
    starts_plain_of_begins (fun heq => hne (by rw [heq]; rfl)) hbegins hordinary, hgoes⟩

/-! ## Between single quotes -/

theorem has_neighbours_append {first second : CodePoint → Bool} {run rest : Text}
    (h : hasNeighbours first second (run ++ rest) = false) {last : CodePoint}
    (hlast : run.getLast? = some last) :
    hasNeighbours first second rest = false ∧
      (first last = true → ∀ c ∈ rest.head?, second c = false) := by
  induction run with
  | nil => cases hlast
  | cons c run ih =>
      cases run with
      | nil =>
          obtain rfl : c = last := by simpa using hlast
          cases rest with
          | nil => exact ⟨rfl, fun _ => nofun⟩
          | cons d rest =>
              simp only [List.cons_append, List.nil_append, hasNeighbours, Bool.or_eq_false_iff,
                Bool.and_eq_false_iff] at h
              refine ⟨h.2, ?_⟩
              rintro hc _ ⟨⟩
              exact h.1.resolve_left (by simp [hc])
      | cons d run =>
          simp only [List.cons_append, hasNeighbours, Bool.or_eq_false_iff] at h
          exact ih h.2 (by simpa using hlast)

/-- Whether a text can be written between single quotes. -/
structure SingleTail (t : Text) : Prop where
  ordinary : ∀ c ∈ t, isOrdinary c = true
  behind : hasNeighbours endsLine isSpace t = false
  before : hasNeighbours isSpace endsLine t = false

theorem SingleTail.of_append {run rest : Text} (h : SingleTail (run ++ rest)) (hne : run ≠ []) :
    SingleTail rest := by
  obtain ⟨last, hlast⟩ := Option.isSome_iff_exists.1 (List.getLast?_isSome.2 hne)
  exact ⟨(List.forall_mem_append.1 h.ordinary).2, (has_neighbours_append h.behind hlast).1,
    (has_neighbours_append h.before hlast).1⟩

/-- A run of spaces or of line ends has visible characters behind it. -/
theorem SingleTail.visible_head {k : Nat} {run rest : Text} (h : SingleTail (run ++ rest))
    (hrun : IsRun runClass k run rest) (hk : k ≠ 2) : ∀ c ∈ rest.head?, runClass c = 2 := by
  intro c hc
  have hordinary := List.forall_mem_append.1 h.ordinary
  obtain ⟨last, hlast⟩ := Option.isSome_iff_exists.1 (List.getLast?_isSome.2 hrun.ne_nil)
  have hmem := List.mem_of_getLast? hlast
  have hclass := hrun.same last hmem
  have hbehind := (has_neighbours_append h.behind hlast).2
  have hbefore := (has_neighbours_append h.before hlast).2
  have hends := hrun.ends c hc
  rcases ordinary_cases (hordinary.1 last hmem) with rfl | rfl | ⟨char, rfl, hink⟩
  · rcases ordinary_cases (hordinary.2 c (List.mem_of_mem_head? hc)) with rfl | rfl | ⟨_, rfl, hink⟩
    · exact absurd hclass hends
    · exact absurd (hbefore rfl _ hc) (by decide)
    · exact class_of_ink hink
  · rcases ordinary_cases (hordinary.2 c (List.mem_of_mem_head? hc)) with rfl | rfl | ⟨_, rfl, hink⟩
    · exact absurd (hbehind rfl _ hc) (by decide)
    · exact absurd hclass hends
    · exact class_of_ink hink
  · rw [class_of_ink hink] at hclass
    exact absurd hclass.symm hk

theorem not_blank_head {v : List Char} (h : v.head?.any isInk = true) (w : List Char) :
    (v ++ w).head?.all (!isBlank ·) = true := by
  cases v with
  | nil => cases h
  | cons c v =>
      have hc : isInk c = true := h
      simp [not_blank_of_ink hc]

/-- The quotes among visible characters are written twice. -/
theorem doubled_spelled {indent : Nat} {word : List Char} (hink : ∀ c ∈ word, isInk c = true)
    {t : Text} {w : List Char} (h : Spelled false indent t w) :
    ∃ doubled, (Text.ofChars word).flatMap (fun c => if c = .scalar '\'' then [c, c] else [c]) =
        Text.ofChars doubled ∧
      Spelled false indent (Text.ofChars word ++ t) (doubled ++ w) ∧
      (word ≠ [] → doubled.head?.any isInk = true) := by
  induction word with
  | nil => exact ⟨[], rfl, h, fun hne => absurd rfl hne⟩
  | cons c word ih =>
      obtain ⟨hc, hword⟩ := List.forall_mem_cons.1 hink
      obtain ⟨doubled, hflat, hspelled, -⟩ := ih hword
      by_cases hquote : c = '\''
      · subst hquote
        refine ⟨'\'' :: '\'' :: doubled, ?_, .quote rfl hspelled, fun _ => rfl⟩
        simpa [Text.ofChars] using hflat
      · refine ⟨c :: doubled, ?_, .ink hc hquote (absurd · Bool.false_ne_true) hspelled, fun _ => hc⟩
        simpa [Text.ofChars, hquote] using hflat

theorem spaces_spelled {indent n : Nat} {t : Text} {w : List Char} {double : Bool}
    (h : Spelled double indent t w) (hw : w.head? ≠ some '\n') :
    Spelled double indent (Text.ofChars (spaces n) ++ t) (spaces n ++ w) := by
  induction n with
  | zero => exact h
  | succ n ih =>
      refine .space ?_ ih
      cases n with
      | zero => exact hw
      | succ n => simp [List.replicate_succ]

/-- The spaces between other characters are written as they are, or a single one as a line end. -/
theorem add_single_gap (indent n : Nat) (first : Bool) (line : Line) (rs : List (Nat × Text)) :
    ∃ gap next, GoesOn line gap next ∧
      addSingle indent first line ((0, Text.ofChars (spaces (n + 1))) :: rs) =
        addSingle indent false next rs ∧
      ∀ {t : Text} {w : List Char}, Spelled false indent t w → w.head?.all (!isBlank ·) = true →
        Spelled false indent (Text.ofChars (spaces (n + 1)) ++ t) (gap ++ w) := by
  by_cases hfold : (Text.ofChars (spaces (n + 1))).length = 1 ∧ bestWidth < line.column ∧ !first ∧
      !rs.isEmpty
  · have hn : n = 0 := by simpa [Text.ofChars] using hfold.1
    subst hn
    refine ⟨_, _, GoesOn.next_line line indent, ?_, fun h hw => .breaks rfl 0 hw h⟩
    rw [addSingle, if_pos rfl, if_pos hfold]
  · refine ⟨_, _, GoesOn.add line _, ?_, fun h hw => spaces_spelled h fun hfeed => ?_⟩
    · rw [addSingle, if_pos rfl, if_neg hfold]
    · rw [hfeed] at hw
      cases hw

theorem add_breaks_goes_on (indent n : Nat) (line : Line) :
    GoesOn line ('\n' :: (List.replicate (n + 1) '\n' ++ spaces indent))
      (addBreaks indent (Text.ofChars (List.replicate (n + 1) '\n')) line) := by
  simp [GoesOn, addBreaks, Text.ofChars, List.replicate_succ]

/-- What is written between single quotes is a spelling of the text. -/
theorem add_single_spelled (indent : Nat) (t : Text) (h : SingleTail t) (first : Bool)
    (line : Line) :
    ∃ w, Spelled false indent t w ∧ GoesOn line w (addSingle indent first line (runs runClass t)) ∧
      ((∀ c ∈ t.head?, runClass c = 2) → w.head?.all (!isBlank ·) = true) := by
  induction t using runs_induction runClass generalizing first line with
  | nil => exact ⟨[], .nil, GoesOn.refl line, fun _ => rfl⟩
  | append k run rest hrun ih =>
      have hrest := h.of_append hrun.ne_nil
      rw [runs_append hrun]
      rcases hrun.cases (List.forall_mem_append.1 h.ordinary).1 with
        ⟨rfl, n, rfl⟩ | ⟨rfl, n, rfl⟩ | ⟨rfl, word, rfl, hink⟩
      -- Spaces and line ends stand in front of visible characters, so no blank follows them.
      · have hvisible := h.visible_head hrun (by decide)
        obtain ⟨gap, next, hgap, hadd, hjoin⟩ := add_single_gap indent n first line (runs runClass rest)
        obtain ⟨w, hspelled, hgoes, hhead⟩ := ih hrest false next
        refine ⟨gap ++ w, hjoin hspelled (hhead hvisible), ?_, fun hclass => ?_⟩
        · rw [hadd]
          exact hgap.trans hgoes
        · cases hclass _ rfl
      · have hvisible := h.visible_head hrun (by decide)
        obtain ⟨w, hspelled, hgoes, hhead⟩ := ih hrest false
          (addBreaks indent (Text.ofChars (List.replicate (n + 1) '\n')) line)
        refine ⟨'\n' :: (List.replicate (n + 1) '\n' ++ (spaces indent ++ w)),
          .breaks rfl (n + 1) (hhead hvisible) hspelled, ?_, fun hclass => ?_⟩
        · rw [addSingle, if_neg (by decide), if_pos rfl]
          simpa using (add_breaks_goes_on indent n line).trans hgoes
        · cases hclass _ rfl
      · obtain ⟨w, hspelled, hgoes, -⟩ := ih hrest false (line.add _)
        obtain ⟨doubled, hflat, hall, hhead⟩ := doubled_spelled hink hspelled
        refine ⟨doubled ++ w, hall, ?_, fun _ => ?_⟩
        · rw [addSingle, if_neg (by decide), if_neg (by decide)]
          exact (GoesOn.add line doubled).trans (hflat ▸ hgoes)
        · exact not_blank_head (hhead fun heq => hrun.ne_nil (by rw [heq]; rfl)) w

end Output

end Yaml

end ProgramInterface
