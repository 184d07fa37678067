import ProgramInterface.Proofs.Yaml.Quoted

/-!
# Reading plain scalars

A plain scalar is words with spaces between them, and a line may end in place of a single space
(`PlainSpelled`). It is read up to a line that is moved in less (`plain_scalar_spelled`), or up to the
colon that makes it a key (`plain_scalar_key`).
-/

namespace ProgramInterface

namespace Yaml

/-- A word of a plain scalar. -/
structure IsWord (word : List Char) : Prop where
  ne_nil : word ≠ []
  ink : ∀ c ∈ word, isInk c = true
  head : word.head? ≠ some '#'
  last : word.getLast? ≠ some ':'

/-- The ways of spelling a text without quotes, with the further lines moved in by `indent`. -/
inductive PlainSpelled (indent : Nat) : List Char → List Char → Prop
  | word {word : List Char} (hword : IsWord word) : PlainSpelled indent word word
  | spaces {word t w : List Char} (n : Nat) (hword : IsWord word) (h : PlainSpelled indent t w) :
      PlainSpelled indent (word ++ (spaces (n + 1) ++ t)) (word ++ (spaces (n + 1) ++ w))
  | fold {word t w : List Char} (hword : IsWord word) (h : PlainSpelled indent t w) :
      PlainSpelled indent (word ++ ' ' :: t) (word ++ '\n' :: (spaces indent ++ w))

theorem inline_of_ink {c : Char} (h : isInk c = true) : isInline c = true := by
  have hbreak : isBreak c = false := by
    have hblank := not_blank_of_ink h
    simp only [isBlank, isSpaceOrBreak, Bool.or_eq_false_iff] at hblank
    exact hblank.2.2
  have hmark : c ≠ '\uFEFF' := by
    rintro rfl
    revert h
    decide
  simp [isInline, hbreak, hmark]

/-- Whether a text begins with something other than a space or a line end, or is empty. -/
def startsVisible (text : List Char) : Bool :=
  text.head?.all (!isSpaceOrBreak ·)

theorem starts_visible_of_word {word : List Char} (h : IsWord word) (rest : List Char) :
    startsVisible (word ++ rest) = true := by
  cases word with
  | nil => exact absurd rfl h.ne_nil
  | cons c word =>
      have hblank := not_blank_of_ink (h.ink c (List.mem_cons_self ..))
      simp only [isBlank, Bool.or_eq_false_iff] at hblank
      simp [startsVisible, hblank.2]

theorem head_word {word : List Char} (h : IsWord word) (rest : List Char) :
    (word ++ rest).head? ≠ some '#' := by
  cases word with
  | nil => exact absurd rfl h.ne_nil
  | cons c word => exact h.head

/-- A text and its spelling begin with the same word. -/
theorem PlainSpelled.first_word {indent : Nat} {t w : List Char} (h : PlainSpelled indent t w) :
    ∃ word others rest, IsWord word ∧ t = word ++ others ∧ w = word ++ rest ∧
      others.head?.any isInk = false := by
  cases h with
  | word hword =>
      exact ⟨_, [], [], hword, (List.append_nil _).symm, (List.append_nil _).symm, rfl⟩
  | spaces n hword => exact ⟨_, _, _, hword, rfl, rfl, rfl⟩
  | fold hword => exact ⟨_, _, _, hword, rfl, rfl, rfl⟩

/-- A spelling begins with a visible character that does not begin a comment. -/
theorem PlainSpelled.starts_visible {indent : Nat} {t w : List Char} (h : PlainSpelled indent t w)
    (rest : List Char) : startsVisible (w ++ rest) = true ∧ (w ++ rest).head? ≠ some '#' := by
  obtain ⟨word, _, others, hword, _, rfl, _⟩ := h.first_word
  rw [List.append_assoc]
  exact ⟨starts_visible_of_word hword _, head_word hword _⟩

theorem PlainSpelled.written {indent : Nat} {t w : List Char} (h : PlainSpelled indent t w) :
    ∀ c ∈ w, isWritten c = true := by
  induction h with
  | word hword => exact fun c hc => written_of_ink (hword.ink c hc)
  | spaces n hword h ih =>
      simp only [List.forall_mem_append]
      exact ⟨fun c hc => written_of_ink (hword.ink c hc), written_spaces, ih⟩
  | fold hword h ih =>
      simp only [List.forall_mem_append, List.forall_mem_cons]
      exact ⟨fun c hc => written_of_ink (hword.ink c hc), rfl, written_spaces, ih⟩

/-! ## Words -/

/-- A word goes up to where a scalar breaks off. -/
theorem plain_run_word {word rest : List Char} (hink : ∀ c ∈ word, isInk c = true)
    (hlast : word.getLast? ≠ some ':') (hstop : ∀ n, plainRun false n rest = n) (n : Nat) :
    plainRun false n (word ++ rest) = n + word.length := by
  induction word generalizing n with
  | nil => exact hstop n
  | cons c word ih =>
      obtain ⟨hc, hword⟩ := List.forall_mem_cons.1 hink
      have hcolon : ¬ (c = ':' ∧ endsOrBlank (word ++ rest) = true) := by
        rintro ⟨rfl, hends⟩
        cases word with
        | nil => exact hlast rfl
        | cons d word =>
            have hblank : isBlank d = true := hends
            rw [not_blank_of_ink (hword d (List.mem_cons_self ..))] at hblank
            cases hblank
      have hlast : word.getLast? ≠ some ':' := by
        cases word with
        | nil => nofun
        | cons d word => rwa [List.getLast?_cons_cons] at hlast
      rw [List.cons_append, plainRun, not_blank_of_ink hc]
      simp only [Bool.false_eq_true, if_false, false_and, or_false, hcolon, ih hword hlast,
        List.length_cons]
      omega

/-- A scalar breaks off at a blank. -/
theorem plain_run_blank {c : Char} (hc : isBlank c = true) (rest : List Char) (n : Nat) :
    plainRun false n (c :: rest) = n := by
  simp [plainRun, hc]

/-- A scalar breaks off at a colon in front of a blank. -/
theorem plain_run_colon {rest : List Char} (hrest : endsOrBlank rest = true) (n : Nat) :
    plainRun false n (':' :: rest) = n := by
  simp [plainRun, hrest]

/-! ## Gaps -/

theorem take_spaces {n : Nat} {rest : List Char} (hrest : startsVisible rest = true) {place : Place}
    (hplace : place.rest = spaces n ++ rest) :
    place.takeWhile (fun c => c = ' ') = (spaces n, place.along n rest) := by
  have htaken := Place.take_while_inline (p := fun c => c = ' ')
    (fun c hc => decide_eq_true (List.eq_of_mem_replicate hc)) (inline_spaces n) ?_ hplace
  · rwa [List.length_replicate] at htaken
  · cases rest with
    | nil => rfl
    | cons c rest =>
        simp only [startsVisible, List.head?_cons, Option.all_some, isSpaceOrBreak,
          Bool.not_eq_true', Bool.or_eq_false_iff] at hrest ⊢
        exact hrest.1

theorem break_none_of_visible {place : Place} (h : startsVisible place.rest = true) :
    place.lineBreak? = none := by
  refine Place.line_break_none ?_
  unfold startsVisible at h
  cases hhead : place.rest.head? with
  | none => rfl
  | some c =>
      rw [hhead] at h
      simp only [Option.all_some, isSpaceOrBreak, Bool.not_eq_true', Bool.or_eq_false_iff] at h ⊢
      exact h.2

theorem breaks_from_spaces {n : Nat} {rest : List Char} (hrest : startsVisible rest = true)
    (breaks : List Char) (fuel : Nat) {place : Place} (hplace : place.rest = spaces n ++ rest) :
    breaksFrom breaks (fuel + n + 1) place = (some breaks, place.along n rest) := by
  induction n generalizing place with
  | zero =>
      have hsees : place.sees ' ' = false := by
        cases rest with
        | nil => simp [Place.sees, hplace]
        | cons c rest =>
            have hc : c ≠ ' ' := by
              rintro rfl
              cases hrest
            simp [Place.sees, hplace, hc]
      have hbreak : place.lineBreak? = none := break_none_of_visible (by rw [hplace]; exact hrest)
      simpa [breaksFrom, hsees, hbreak] using (Place.along_zero hplace).symm
  | succ n ih =>
      rw [spaces_succ, List.cons_append] at hplace
      have hsees : place.sees ' ' = true := by simp [Place.sees, hplace]
      have hstep := Place.step_inline hplace (by decide)
      rw [breaksFrom, if_pos hsees, hstep, ← Nat.add_assoc, ih rfl, Place.along_along, Nat.add_comm]

theorem plain_gap_spaces {n : Nat} {rest : List Char} (hrest : startsVisible rest = true)
    {place : Place} (hplace : place.rest = spaces n ++ rest) :
    plainGap place = (some (spaces n), false, place.along n rest) := by
  rw [plainGap, take_spaces hrest hplace]
  have hbreak : (place.along n rest).lineBreak? = none := break_none_of_visible hrest
  simp only [hbreak]

theorem plain_gap_break {n : Nat} {rest : List Char} (hrest : startsVisible rest = true)
    (hmarker : atDocumentMarker (spaces n ++ rest) = false) (place : Place)
    (hplace : place.rest = '\n' :: (spaces n ++ rest)) :
    ∃ behind : Place, behind.rest = rest ∧ behind.column = n ∧
      plainGap place = (some [' '], true, behind) := by
  have htaken : place.takeWhile (fun c => c = ' ') = ([], place) := by
    simp [Place.takeWhile, hplace, Place.advance]
  have hfuel : (spaces n ++ rest).length + 1 = rest.length + n + 1 := by
    simp only [List.length_append, List.length_replicate]
    omega
  refine ⟨(place.below (spaces n ++ rest)).along n rest, rfl, Nat.zero_add n, ?_⟩
  rw [plainGap, htaken]
  simp only [Place.line_break_feed hplace, Place.rest_below, hmarker, Bool.false_eq_true, if_false,
    hfuel, breaks_from_spaces hrest [] rest.length (Place.rest_below)]
  rfl

/-! ## Scalars -/

section
variable {word rest next done gap : List Char} {least : Int} {fuel : Nat} {crossed crossedNext : Bool}
  {place behind : Place}

/-- A word of a plain scalar is read, and then the gap behind it. -/
theorem plain_from_word (hword : IsWord word) (hstop : ∀ n, plainRun false n rest = n)
    (hplace : place.rest = word ++ rest)
    (hgap : plainGap (place.along word.length rest) = (some next, crossedNext, behind)) :
    plainFrom false least done gap crossed (fuel + 1) place =
      let all := word.reverse ++ (gap.reverse ++ done)
      if next.isEmpty ∨ behind.sees '#' ∨ (behind.column : Int) < least then
        (all.reverse, crossedNext, behind)
      else plainFrom false least all next crossedNext fuel behind := by
  have hrun : plainRun false 0 place.rest = word.length := by
    rw [hplace, plain_run_word hword.ink hword.last hstop, Nat.zero_add]
  have hsees : place.sees '#' = false := by
    simp only [Place.sees, hplace, decide_eq_false_iff_not]
    exact head_word hword rest
  have hne : word.length ≠ 0 := mt List.length_eq_zero_iff.1 hword.ne_nil
  have hadvance : place.advance word.length = place.along word.length rest :=
    Place.advance_inline (fun c hc => inline_of_ink (hword.ink c hc)) hplace
  have htake : place.rest.take word.length = word := by simp [hplace]
  simp only [plainFrom, hrun, hsees, hne, hadvance, hgap, htake, Bool.false_eq_true, or_self,
    if_false, Bool.not_false, true_and]

/-- A scalar goes on behind a gap. -/
theorem plain_from_gap (hword : IsWord word) (hstop : ∀ n, plainRun false n rest = n)
    (hplace : place.rest = word ++ rest)
    (hgap : plainGap (place.along word.length rest) = (some next, crossedNext, behind))
    (hne : next ≠ []) (hhead : behind.rest.head? ≠ some '#') (hcolumn : least ≤ behind.column) :
    plainFrom false least done gap crossed (fuel + 1) place =
      plainFrom false least (word.reverse ++ (gap.reverse ++ done)) next crossedNext fuel
        behind := by
  have hempty : next.isEmpty = false := List.isEmpty_eq_false_iff.2 hne
  have hsees : behind.sees '#' = false := decide_eq_false_iff_not.2 hhead
  rw [plain_from_word hword hstop hplace hgap]
  exact if_neg (by simp [hempty, hsees, Int.not_lt.2 hcolumn])

end

theorem fuel_of_word {word rest : List Char} (hword : IsWord word) {fuel : Nat}
    (h : (word ++ rest).length ≤ fuel) :
    ∃ less, fuel = less + 1 ∧ rest.length ≤ less := by
  have hpos := List.length_pos_iff.2 hword.ne_nil
  rw [List.length_append] at h
  exact ⟨fuel - 1, by omega, by omega⟩

theorem plain_from_spelled {indent : Nat} {t w : List Char} (h : PlainSpelled indent t w)
    {least : Int} (hleast : least ≤ indent) {k : Nat} {rest : List Char} (hk : (k : Int) < least)
    (hrest : startsVisible rest = true) (hmarker : atDocumentMarker (spaces k ++ rest) = false)
    {fuel : Nat} (hfuel : w.length ≤ fuel) (done gap : List Char) (crossed : Bool) (place : Place)
    (hplace : place.rest = w ++ '\n' :: (spaces k ++ rest)) (hcolumn : least ≤ place.column) :
    ∃ behind : Place, behind.rest = rest ∧ behind.column = k ∧
      plainFrom false least done gap crossed fuel place = (done.reverse ++ gap ++ t, true, behind) := by
  -- By induction on the spelling; `done` and `gap` hold what is read so far, the last one first.
  induction h generalizing fuel done gap crossed place with
  | word hword =>
      rename_i word
      obtain ⟨fuel, rfl, _⟩ := fuel_of_word hword ((List.append_nil word).symm ▸ hfuel)
      obtain ⟨behind, hbehind, hcolumn, hgap⟩ := plain_gap_break hrest hmarker
        (place.along word.length ('\n' :: (spaces k ++ rest))) rfl
      refine ⟨behind, hbehind, hcolumn, ?_⟩
      rw [plain_from_word hword (plain_run_blank rfl _) hplace hgap,
        if_pos (.inr (.inr (hcolumn ▸ hk)))]
      simp
  | spaces n hword h ih =>
      rename_i word t w
      obtain ⟨less, rfl, hless⟩ := fuel_of_word hword hfuel
      have hplace : place.rest =
          word ++ (spaces (n + 1) ++ (w ++ '\n' :: (spaces k ++ rest))) := by
        simpa using hplace
      obtain ⟨hvisible, hhead⟩ := h.starts_visible ('\n' :: (spaces k ++ rest))
      have hbehind : least ≤ ((place.column + word.length + (n + 1) : Nat) : Int) := by omega
      have hlength : w.length ≤ less := by
        rw [List.length_append] at hless
        omega
      obtain ⟨last, hlast, hk, hfrom⟩ := ih hlength (word.reverse ++ (gap.reverse ++ done))
        (spaces (n + 1)) false
        ((place.along word.length _).along (n + 1) (w ++ '\n' :: (spaces k ++ rest))) rfl hbehind
      refine ⟨last, hlast, hk, ?_⟩
      have hne : spaces (n + 1) ≠ [] := List.cons_ne_nil _ _
      rw [plain_from_gap hword (plain_run_blank rfl _) hplace (plain_gap_spaces hvisible rfl) hne
        hhead hbehind, hfrom]
      simp
  | fold hword h ih =>
      rename_i word t w
      obtain ⟨less, rfl, hless⟩ := fuel_of_word hword hfuel
      have hplace : place.rest =
          word ++ '\n' :: (spaces indent ++ (w ++ '\n' :: (spaces k ++ rest))) := by
        simpa using hplace
      obtain ⟨hvisible, hhead⟩ := h.starts_visible ('\n' :: (spaces k ++ rest))
      have hindent : 0 < indent := by omega
      obtain ⟨behind, hbehind, hindent, hgap⟩ := plain_gap_break hvisible (not_marker_moved hindent _)
        (place.along word.length
          ('\n' :: (spaces indent ++ (w ++ '\n' :: (spaces k ++ rest))))) rfl
      have hlength : w.length ≤ less := by
        rw [List.length_cons, List.length_append] at hless
        omega
      have hcolumn : least ≤ behind.column := by omega
      -- A lone line break is read as a space, the gap in front of the next word.
      obtain ⟨last, hlast, hk, hfrom⟩ := ih hlength (word.reverse ++ (gap.reverse ++ done)) [' '] true
        behind hbehind hcolumn
      refine ⟨last, hlast, hk, ?_⟩
      rw [plain_from_gap hword (plain_run_blank rfl _) hplace hgap (List.cons_ne_nil _ _)
        (hbehind ▸ hhead) hcolumn, hfrom]
      simp

/-- A plain scalar is read up to a line that is moved in less than `least`. -/
theorem plain_scalar_spelled {indent : Nat} {t w : List Char} (least : Int)
    (h : PlainSpelled indent t w) (hleast : least ≤ indent) {k : Nat} {rest : List Char}
    (hk : (k : Int) < least) (hrest : startsVisible rest = true)
    (hmarker : atDocumentMarker (spaces k ++ rest) = false)
    {place : Place} (hplace : place.rest = w ++ '\n' :: (spaces k ++ rest))
    (hcolumn : least ≤ place.column) :
    ∃ behind : Place, behind.rest = rest ∧ behind.column = k ∧
      plainScalar false least place = (t, true, behind) := by
  have hfuel : w.length ≤ place.rest.length + 1 := by
    rw [hplace, List.length_append]
    omega
  obtain ⟨behind, hbehind, hk, hfrom⟩ := plain_from_spelled h hleast hk hrest hmarker
    hfuel [] [] false place hplace hcolumn
  exact ⟨behind, hbehind, hk, hfrom⟩

/-- A plain scalar is read up to the colon behind it. -/
theorem plain_scalar_key {word rest : List Char} (least : Int) (hword : IsWord word)
    (hrest : endsOrBlank rest = true) {place : Place}
    (hplace : place.rest = word ++ ':' :: rest) :
    plainScalar false least place = (word, false, place.along word.length (':' :: rest)) := by
  have hgap : plainGap (place.along word.length (':' :: rest)) =
      (some [], false, place.along word.length (':' :: rest)) := by
    exact plain_gap_spaces (n := 0) rfl rfl
  rw [plainScalar, plain_from_word hword (plain_run_colon hrest) hplace hgap]
  simp

end Yaml

end ProgramInterface
