import Mathlib.Data.List.Basic
import ProgramInterface.Proofs.Number.Digits
import ProgramInterface.Proofs.Yaml.Line

/-!
# Writing texts with escapes

Every code point that is not written as it is has an escape that stands for it (`escape_stands`), and
what is written between double quotes is a spelling of the text (`add_double_spelled`).
-/

namespace ProgramInterface

namespace Yaml

namespace Output

/-! ## Escapes -/

theorem escape_letter {n : Nat} {letter : Char} (h : escapeLetter? n = some letter) :
    n < 0xD800 ∧ escapedChar? letter = some (Char.ofNat n) ∧ isWritten letter = true := by
  unfold escapeLetter? at h
  split at h <;> cases h <;> decide

theorem capital_hex {k n : Nat} (hk : 0 < k) (h : n < Nat.pow 16 k) :
    ∃ digits : List Nat, digits.length = k ∧ (∀ d ∈ digits, d < 16) ∧
      capitalHex k n = digits.map (fun d => (Nat.digitChar d).toUpper) ∧
      IntegerText.ofDigits 16 digits = n := by
  obtain ⟨digits, hlength, hsmall, hdigits, hvalue⟩ := Text.hexadecimal_of_lt hk h
  exact ⟨digits, hlength, hsmall, by rw [capitalHex, hdigits, List.map_map]; rfl, hvalue⟩

/-- A letter and as many hexadecimal digits as it asks for stand for the code point with the number. -/
theorem numbered_escape (mark : Char) (k : Nat) (hletter : escapedChar? mark = none)
    (hwidth : escapeWidth? mark = some k) (hk : 0 < k) (hmark : isWritten mark = true) {c : CodePoint}
    (hc : c.val < Nat.pow 16 k) :
    IsEscape c (mark :: capitalHex k c.val) ∧ ∀ d ∈ mark :: capitalHex k c.val, isWritten d = true := by
  obtain ⟨digits, hlength, hsmall, hdigits, hvalue⟩ := capital_hex hk hc
  have hdigit : ∀ d < 16, IntegerText.digitIn? 16 (Nat.digitChar d).toUpper = some d ∧
      isWritten (Nat.digitChar d).toUpper = true := by decide
  have hvalues : (capitalHex k c.val).filterMap (IntegerText.digitIn? 16) = digits := by
    rw [hdigits, List.filterMap_map]
    have hsome : ∀ d ∈ digits, (IntegerText.digitIn? 16 ∘ fun d => (Nat.digitChar d).toUpper) d =
        some d := fun d hd => (hdigit d (hsmall d hd)).1
    rw [List.filterMap_congr hsome, List.filterMap_some]
  have hcapital : (capitalHex k c.val).length = k := by rw [hdigits, List.length_map, hlength]
  refine ⟨.digits hletter (by rw [hwidth, hcapital]) hvalues (by rw [hlength, hcapital]) ?_, ?_⟩
  · rw [hvalue, numberedPoint, CodePoint.of_nat_val]
  · rw [hdigits]
    exact List.forall_mem_cons.2 ⟨hmark, by simpa using fun d hd => (hdigit d (hsmall d hd)).2⟩

/-- The escape of a code point stands for it. -/
theorem escape_stands (c : CodePoint) :
    ∃ e, escape c = Text.ofChars ('\\' :: e) ∧ IsEscape c e ∧ ∀ d ∈ e, isWritten d = true := by
  unfold escape
  cases hletter : escapeLetter? c.val with
  | some letter =>
      obtain ⟨hsmall, hchar, hwritten⟩ := escape_letter hletter
      refine ⟨[letter], rfl, ?_, by simpa using hwritten⟩
      have hc := CodePoint.eq_scalar_of_val rfl hsmall
      exact hc ▸ .letter hchar
  | none =>
      simp only
      split
      · exact ⟨_, rfl, numbered_escape 'x' 2 rfl rfl (by decide) rfl (show c.val < 0x100 by omega)⟩
      · split
        · exact ⟨_, rfl, numbered_escape 'u' 4 rfl rfl (by decide) rfl (show c.val < 0x10000 by omega)⟩
        · have hbound := c.val_lt
          exact ⟨_, rfl, numbered_escape 'U' 8 rfl rfl (by decide) rfl
            (show c.val < 0x100000000 by omega)⟩

/-! ## Between double quotes -/

variable {indent : Nat} {t : Text} {w : List Char}

theorem head_not_feed (h : Spelled true indent t w) : w.head? ≠ some '\n' := by
  cases h with
  | nil => nofun
  | ink hink =>
      rintro ⟨⟩
      cases hink
  | space => nofun
  | escape => nofun
  | joined => nofun
  | quote hdouble => cases hdouble
  | breaks hdouble => cases hdouble

/-- Only a space is spelled with a space at its beginning. -/
theorem head_not_blank (h : Spelled true indent t w) (hspace : t.head? ≠ some (.scalar ' ')) :
    w.head?.all (!isBlank ·) = true := by
  refine h.head_blank (fun hw => ?_) (head_not_feed h)
  cases h with
  | nil => cases hw
  | ink hink =>
      cases hw
      cases hink
  | space => exact hspace rfl
  | escape => cases hw
  | joined => cases hw
  | quote => cases hw
  | breaks => cases hw

/-- A code point that needs no escape is a space or a visible character other than the quote and the
backslash. -/
theorem unescaped_cases {c : CodePoint} (h : isUnescaped c = true) :
    c = .scalar ' ' ∨ ∃ char, c = .scalar char ∧ isInk char = true ∧ char ≠ '"' ∧ char ≠ '\\' := by
  simp only [isUnescaped, Bool.and_eq_true, decide_eq_true_eq] at h
  obtain ⟨⟨⟨hleast, hmost⟩, hquote⟩, hslash⟩ := h
  have hordinary : isOrdinary c = true := by simp [isOrdinary, hleast, hmost]
  rcases ordinary_cases hordinary with rfl | rfl | ⟨char, rfl, hink⟩
  · exact .inl rfl
  · exact absurd hleast (by decide)
  · exact .inr ⟨char, rfl, hink, fun heq => hquote (congrArg _ heq), fun heq => hslash (congrArg _ heq)⟩

/-- Code points that are held back are written as they are. -/
theorem held_spelled {held : Text} (hheld : ∀ c ∈ held, isUnescaped c = true)
    (h : Spelled true indent t w) :
    ∃ chars, held = Text.ofChars chars ∧ Spelled true indent (held ++ t) (chars ++ w) := by
  induction held with
  | nil => exact ⟨[], rfl, h⟩
  | cons c held ih =>
      obtain ⟨hc, hrest⟩ := List.forall_mem_cons.1 hheld
      obtain ⟨chars, hchars, hspelled⟩ := ih hrest
      rcases unescaped_cases hc with rfl | ⟨char, rfl, hink, hquote, hslash⟩
      · exact ⟨' ' :: chars, congrArg (_ :: ·) hchars, .space (head_not_feed hspelled) hspelled⟩
      · exact ⟨char :: chars, congrArg (_ :: ·) hchars, .ink hink hquote (fun _ => hslash) hspelled⟩

/-- Code points that are held back may begin behind a backslash, if they begin with a space. -/
theorem led_spelled {held : Text} (hheld : ∀ c ∈ held, isUnescaped c = true) (isLed : Bool)
    (hled : isLed = true → held.head? = some (.scalar ' ')) (h : Spelled true indent t w) :
    ∃ chars, held = Text.ofChars chars ∧
      Spelled true indent (held ++ t) (if isLed then '\\' :: (chars ++ w) else chars ++ w) := by
  cases isLed with
  | false => exact held_spelled hheld h
  | true =>
      obtain ⟨held, rfl⟩ := List.head?_eq_some_iff.1 (hled rfl)
      obtain ⟨chars, rfl, hspelled⟩ := held_spelled (List.forall_mem_cons.1 hheld).2 h
      have hspace : IsEscape (.scalar ' ') [' '] := .letter rfl
      have hled : Spelled true indent _ ('\\' :: ([' '] ++ (chars ++ w))) :=
        .escape rfl hspace (by decide) hspelled
      exact ⟨' ' :: chars, rfl, hled⟩

/-- The line behind a backslash at the end of one, in front of some text. -/
def openedLine (indent : Nat) (next : Text) (line : Line) : Line :=
  let ended := (line.add "\\").break indent
  if next.head? = some (.scalar ' ') then ended.add "\\" else ended

/-- The text in a line that is opened is spelled like the text itself. -/
theorem opened_spelled {line last : Line}
    (hgoes : GoesOn (openedLine indent t line) w last)
    (h : Spelled true indent t (if t.head? = some (.scalar ' ') then '\\' :: w else w)) :
    ∃ v, GoesOn line v last ∧ Spelled true indent t v := by
  have hended : GoesOn line ('\\' :: '\n' :: spaces indent) ((line.add "\\").break indent) :=
    (GoesOn.add line ['\\']).trans (GoesOn.next_line _ indent)
  refine ⟨'\\' :: '\n' :: (spaces indent ++ if t.head? = some (.scalar ' ') then '\\' :: w else w),
    ?_, .joined rfl ?_ h⟩
  · unfold openedLine at hgoes
    by_cases hspace : t.head? = some (.scalar ' ')
    · simp only [hspace, if_true] at hgoes ⊢
      exact hended.trans ((GoesOn.add _ ['\\']).trans hgoes)
    · simp only [hspace, if_false] at hgoes ⊢
      exact hended.trans hgoes
  · by_cases hspace : t.head? = some (.scalar ' ')
    · simp [hspace, isBlank, isSpaceOrBreak, isBreak]
    · simp only [hspace, if_false] at h ⊢
      exact head_not_blank h hspace

theorem add_append (line : Line) (s t : Text) : line.add (s ++ t) = (line.add s).add t := by
  simp [Line.add, Nat.add_assoc]

/-- A code point that needs no escape is held back; the line may be broken in front of it. -/
theorem add_double_unescaped {c : CodePoint} (h : isUnescaped c = true) (size position : Nat)
    (line : Line) (held rest : Text) :
    addDouble indent size line held position (c :: rest) =
        addDouble indent size line (c :: held) (position + 1) rest ∨
      bestWidth < line.column + held.length ∧
        addDouble indent size line held position (c :: rest) =
          addDouble indent size (openedLine indent (c :: rest) (line.add held.reverse)) [c]
            (position + 1) rest := by
  rw [addDouble]
  simp only [h, if_true, Bool.false_eq_true, if_false, Bool.or_false, add_append]
  split
  · rename_i hbreak
    simp only [Bool.and_eq_true, decide_eq_true_eq] at hbreak
    exact .inr ⟨hbreak.2, rfl⟩
  · exact .inl rfl

/-- An escape is written behind what was held back; the line may be broken behind it. -/
theorem add_double_escaped {c : CodePoint} (h : isUnescaped c = false) (size position : Nat)
    (line : Line) (held rest : Text) :
    addDouble indent size line held position (c :: rest) =
        addDouble indent size ((line.add held.reverse).add (escape c)) [] (position + 1) rest ∨
      addDouble indent size line held position (c :: rest) =
        addDouble indent size (openedLine indent rest ((line.add held.reverse).add (escape c))) []
          (position + 1) rest := by
  rw [addDouble]
  simp only [h, Bool.false_eq_true, if_false, if_true]
  split
  · exact .inr rfl
  · exact .inl rfl

/-- What was held back is written in front of a text. -/
theorem flushed_spelled {held : Text} {line last : Line} {isLed : Bool}
    (hheld : ∀ c ∈ held, isUnescaped c = true)
    (hled : isLed = true → held ≠ [] ∧ (held.reverse ++ t).head? = some (.scalar ' '))
    (hgoes : GoesOn (line.add held.reverse) w last) (h : Spelled true indent t w) :
    ∃ v, GoesOn line v last ∧
      Spelled true indent (held.reverse ++ t) (if isLed then '\\' :: v else v) := by
  have hreversed : ∀ c ∈ held.reverse, isUnescaped c = true :=
    fun c hc => hheld c (List.mem_reverse.1 hc)
  have hfirst : isLed = true → held.reverse.head? = some (.scalar ' ') := by
    intro hisLed
    obtain ⟨hne, hhead⟩ := hled hisLed
    rwa [List.head?_append_of_ne_nil _ (by simpa using hne)] at hhead
  obtain ⟨chars, hchars, hspelled⟩ := led_spelled hreversed isLed hfirst h
  exact ⟨chars ++ w, (hchars ▸ GoesOn.add line chars).trans hgoes, hspelled⟩

theorem column_opened_line (hindent : indent < bestWidth) (next : Text) (line : Line) :
    (openedLine indent next line).column ≤ bestWidth := by
  unfold openedLine
  split
  · exact hindent
  · exact Nat.le_of_lt hindent

/-- What is written between double quotes is a spelling of the text. In front of the text stands what
was held back; if a backslash stands in front of that, it begins with a space. -/
theorem add_double_spelled (hindent : indent < bestWidth) (size : Nat) (t : Text) (line : Line)
    (held : Text) (position : Nat) (isLed : Bool) (hheld : ∀ c ∈ held, isUnescaped c = true)
    (hled : isLed = true → (held.reverse ++ t).head? = some (.scalar ' '))
    (hcolumn : isLed = true → held = [] → line.column ≤ bestWidth) :
    ∃ w, GoesOn line w (addDouble indent size line held position t) ∧
      Spelled true indent (held.reverse ++ t) (if isLed then '\\' :: w else w) := by
  induction t generalizing line held position isLed with
  | nil =>
      refine flushed_spelled hheld (fun hisLed => ⟨?_, hled hisLed⟩) (GoesOn.refl _) .nil
      rintro rfl
      cases hled hisLed
  | cons c rest ih =>
      by_cases hc : isUnescaped c = true
      · rcases add_double_unescaped hc size position line held rest with heq | ⟨hwide, heq⟩
        · have hrest := ih line (c :: held) (position + 1) isLed
            (List.forall_mem_cons.2 ⟨hc, hheld⟩) (by simpa using hled) (fun _ => nofun)
          rw [heq]
          simpa using hrest
        · obtain ⟨w, hgoes, hspelled⟩ := ih (openedLine indent (c :: rest) (line.add held.reverse)) [c]
            (position + 1) (decide ((c :: rest).head? = some (.scalar ' '))) (by simpa using hc)
            (by simp) (fun _ => nofun)
          obtain ⟨v, hv, hspelled⟩ := opened_spelled hgoes (by simpa using hspelled)
          rw [heq]
          refine flushed_spelled hheld (fun hisLed => ⟨?_, hled hisLed⟩) hv hspelled
          -- A line that was just opened is too short to be broken before anything is held back.
          rintro rfl
          exact Nat.not_lt.2 (hcolumn hisLed rfl) hwide
      · have hc : isUnescaped c = false := Bool.eq_false_iff.2 hc
        obtain ⟨e, hescape, hstands, hwritten⟩ := escape_stands c
        have hrest : ∃ v, GoesOn ((line.add held.reverse).add (escape c)) v
            (addDouble indent size line held position (c :: rest)) ∧ Spelled true indent rest v := by
          rcases add_double_escaped hc size position line held rest with heq | heq
          · rw [heq]
            simpa using ih ((line.add held.reverse).add (escape c)) [] (position + 1) false nofun nofun
              nofun
          · obtain ⟨w, hgoes, hspelled⟩ := ih
              (openedLine indent rest ((line.add held.reverse).add (escape c))) [] (position + 1)
              (decide (rest.head? = some (.scalar ' '))) nofun (by simp)
              (fun _ _ => column_opened_line hindent _ _)
            rw [heq]
            exact opened_spelled hgoes (by simpa using hspelled)
        obtain ⟨v, hv, hspelled⟩ := hrest
        refine flushed_spelled hheld (fun hisLed => ⟨?_, hled hisLed⟩)
          ((hescape ▸ GoesOn.add _ ('\\' :: e)).trans hv) (.escape rfl hstands hwritten hspelled)
        -- Behind a backslash a space comes first, and a space needs no escape.
        rintro rfl
        obtain rfl : c = .scalar ' ' := by simpa using hled hisLed
        cases hc

end Output

end Yaml

end ProgramInterface
