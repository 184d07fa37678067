import ProgramInterface.Proofs.Yaml.Place
import ProgramInterface.Yaml.Scalar

/-!
# Reading quoted scalars

The ways in which a text can be spelled between quotes (`Spelled`), with lines broken inside it, and
that the text is read from each of them (`quoted_scalar_spelled`). Between single quotes a line feed
stands for a space and further ones for themselves; between double quotes a line is broken behind a
backslash, which stands for nothing.
-/

namespace ProgramInterface

namespace Yaml

/-- Whether a character is visible: neither a blank nor a character that needs an escape. -/
def isInk (c : Char) : Bool :=
  '!' ≤ c && c ≤ '~'

/-- Whether a character is written as it is: a visible one, a space or a line feed. -/
def isWritten (c : Char) : Bool :=
  isInk c || c = ' ' || c = '\n'

/-- The quote that a quoted scalar stands between. -/
def quoteOf (double : Bool) : Char :=
  if double then '"' else '\''

/-- Whether some characters behind a backslash stand for a code point: a letter, or a letter and
hexadecimal digits. -/
inductive IsEscape : CodePoint → List Char → Prop
  | letter {letter char : Char} (h : escapedChar? letter = some char) :
      IsEscape (.scalar char) [letter]
  | digits {mark : Char} {digits : List Char} {values : List Nat} {point : CodePoint}
      (hmark : escapedChar? mark = none) (hwidth : escapeWidth? mark = some digits.length)
      (hvalues : digits.filterMap (IntegerText.digitIn? 16) = values)
      (hlength : values.length = digits.length)
      (hpoint : numberedPoint (IntegerText.ofDigits 16 values) = .ok point) :
      IsEscape point (mark :: digits)

/-- The ways of spelling a text between quotes, with the further lines moved in by `indent`. -/
inductive Spelled (double : Bool) (indent : Nat) : Text → List Char → Prop
  | nil : Spelled double indent [] []
  | ink {c : Char} {t : Text} {w : List Char} (hink : isInk c = true)
      (hquote : c ≠ quoteOf double) (hslash : double = true → c ≠ '\\')
      (h : Spelled double indent t w) : Spelled double indent (.scalar c :: t) (c :: w)
  | space {t : Text} {w : List Char} (hnext : w.head? ≠ some '\n')
      (h : Spelled double indent t w) : Spelled double indent (.scalar ' ' :: t) (' ' :: w)
  | quote {t : Text} {w : List Char} (hdouble : double = false)
      (h : Spelled double indent t w) :
      Spelled double indent (.scalar '\'' :: t) ('\'' :: '\'' :: w)
  | breaks {t : Text} {w : List Char} (hdouble : double = false) (n : Nat)
      (hnext : w.head?.all (!isBlank ·) = true) (h : Spelled double indent t w) :
      Spelled double indent (Text.ofChars (foldBreaks '\n' (List.replicate n '\n')) ++ t)
        ('\n' :: (List.replicate n '\n' ++ (spaces indent ++ w)))
  | escape {point : CodePoint} {e w : List Char} {t : Text} (hdouble : double = true)
      (hescape : IsEscape point e) (hwritten : ∀ c ∈ e, isWritten c = true)
      (h : Spelled double indent t w) :
      Spelled double indent (point :: t) ('\\' :: (e ++ w))
  | joined {t : Text} {w : List Char} (hdouble : double = true)
      (hnext : w.head?.all (!isBlank ·) = true) (h : Spelled double indent t w) :
      Spelled double indent t ('\\' :: '\n' :: (spaces indent ++ w))

theorem not_blank_of_ink {c : Char} (h : isInk c = true) : isBlank c = false := by
  refine Bool.eq_false_iff.2 fun hblank => ?_
  simp only [isBlank, isSpaceOrBreak, isBreak, Bool.or_eq_true, decide_eq_true_eq] at hblank
  obtain rfl | rfl | (((rfl | rfl) | rfl) | rfl) | rfl := hblank <;> revert h <;> decide

theorem not_blank_quote (double : Bool) : isBlank (quoteOf double) = false := by
  cases double <;> rfl

/-- What is spelled begins with a visible character, a space or a line feed. -/
theorem Spelled.head_blank {double : Bool} {indent : Nat} {t : Text} {w : List Char}
    (h : Spelled double indent t w) (hspace : w.head? ≠ some ' ') (hfeed : w.head? ≠ some '\n') :
    w.head?.all (!isBlank ·) = true := by
  cases h with
  | nil => rfl
  | ink hink => simp [not_blank_of_ink hink]
  | space => simp at hspace
  | quote => rfl
  | breaks => simp at hfeed
  | escape => rfl
  | joined => rfl

theorem written_of_ink {c : Char} (h : isInk c = true) : isWritten c = true := by
  simp [isWritten, h]

theorem written_spaces {n : Nat} : ∀ c ∈ spaces n, isWritten c = true :=
  fun _ hc => List.eq_of_mem_replicate hc ▸ rfl

theorem Spelled.written {double : Bool} {indent : Nat} {t : Text} {w : List Char}
    (h : Spelled double indent t w) : ∀ c ∈ w, isWritten c = true := by
  have hfeed : isWritten '\n' = true := rfl
  have hslash : isWritten '\\' = true := rfl
  induction h with
  | nil => exact nofun
  | ink hink _ _ h ih => exact List.forall_mem_cons.2 ⟨written_of_ink hink, ih⟩
  | space _ h ih => exact List.forall_mem_cons.2 ⟨rfl, ih⟩
  | quote _ h ih => exact List.forall_mem_cons.2 ⟨rfl, List.forall_mem_cons.2 ⟨rfl, ih⟩⟩
  | breaks _ n _ h ih =>
      have hfeeds : ∀ c ∈ List.replicate n '\n', isWritten c = true :=
        fun _ hc => List.eq_of_mem_replicate hc ▸ rfl
      simp only [List.forall_mem_cons, List.forall_mem_append]
      exact ⟨hfeed, hfeeds, written_spaces, ih⟩
  | escape _ _ hwritten h ih =>
      simp only [List.forall_mem_cons, List.forall_mem_append]
      exact ⟨hslash, hwritten, ih⟩
  | joined _ _ h ih =>
      simp only [List.forall_mem_cons, List.forall_mem_append]
      exact ⟨hslash, hfeed, written_spaces, ih⟩

theorem not_marker {text : List Char} (hdash : text.head? ≠ some '-') (hpoint : text.head? ≠ some '.') :
    atDocumentMarker text = false := by
  cases text with
  | nil => rfl
  | cons c text =>
      have h1 : c ≠ '-' := fun h => hdash (congrArg some h)
      have h2 : c ≠ '.' := fun h => hpoint (congrArg some h)
      simp [atDocumentMarker, h1, h2]

theorem not_marker_moved {indent : Nat} (hindent : 0 < indent) (rest : List Char) :
    atDocumentMarker (spaces indent ++ rest) = false := by
  obtain ⟨n, rfl⟩ := Nat.exists_eq_add_of_lt hindent
  exact not_marker (by simp [List.replicate_succ]) (by simp [List.replicate_succ])

theorem not_break_of_blank {text : List Char} (h : text.head?.all (!isBlank ·) = true) :
    text.head?.all (!isBreak ·) = true := by
  cases text with
  | nil => rfl
  | cons c text =>
      simp only [List.head?_cons, Option.all_some, isBlank, isSpaceOrBreak, Bool.not_eq_true',
        Bool.or_eq_false_iff] at h ⊢
      exact h.2.2

theorem take_gap {n : Nat} {rest : List Char} (hrest : rest.head?.all (!isBlank ·) = true)
    {place : Place} (hplace : place.rest = spaces n ++ rest) :
    place.takeWhile (fun c => c = ' ' || c = '\t') = (spaces n, place.along n rest) := by
  have htaken := Place.take_while_inline (p := fun c => c = ' ' || c = '\t')
    (fun c hc => by simp [List.eq_of_mem_replicate hc]) (inline_spaces n) ?_ hplace
  · rwa [List.length_replicate] at htaken
  · cases rest with
    | nil => rfl
    | cons c rest =>
        simp only [List.head?_cons, Option.all_some, isBlank, isSpaceOrBreak, Bool.not_eq_true',
          Bool.or_eq_false_iff] at hrest ⊢
        exact ⟨hrest.2.1, hrest.1⟩

/-- The line feeds at a place inside a quoted scalar, up to where its next line begins. -/
theorem quoted_breaks_feeds {n indent : Nat} {rest : List Char} (hindent : 0 < indent)
    (hrest : rest.head?.all (!isBlank ·) = true) (done : List Char) (fuel : Nat) (place : Place)
    (hplace : place.rest = List.replicate n '\n' ++ (spaces indent ++ rest)) :
    ∃ behind : Place, behind.rest = rest ∧
      quotedBreaks done (fuel + n + 1) place =
        .ok (done.reverse ++ List.replicate n '\n', behind) := by
  induction n generalizing done place with
  | zero =>
      have hmarker : atDocumentMarker place.rest = false := by
        rw [hplace]
        exact not_marker_moved hindent rest
      have htaken := take_gap hrest hplace
      have hbreak : (place.along indent rest).lineBreak? = none :=
        Place.line_break_none (not_break_of_blank hrest)
      refine ⟨place.along indent rest, rfl, ?_⟩
      simp [quotedBreaks, hmarker, htaken, hbreak]
  | succ n ih =>
      rw [List.replicate_succ, List.cons_append] at hplace
      have hmarker : atDocumentMarker place.rest = false := by
        rw [hplace]
        exact not_marker (by simp) (by simp)
      have htaken : place.takeWhile (fun c => c = ' ' || c = '\t') = ([], place) := by
        simp [Place.takeWhile, hplace, Place.advance]
      obtain ⟨behind, hbehind, hbreaks⟩ :=
        ih ('\n' :: done) (place.below (List.replicate n '\n' ++ (spaces indent ++ rest))) rfl
      refine ⟨behind, hbehind, ?_⟩
      rw [← Nat.add_assoc, quotedBreaks, hmarker, if_neg Bool.false_ne_true, htaken]
      simp only [Place.line_break_feed hplace, hbreaks, List.reverse_cons, List.append_assoc,
        List.singleton_append, List.replicate_succ]

theorem quoted_gap_spaces {n : Nat} {rest : List Char} (hne : rest ≠ [])
    (hrest : rest.head?.all (!isBlank ·) = true) {place : Place}
    (hplace : place.rest = spaces n ++ rest) :
    quotedGap place = .ok (spaces n, place.along n rest) := by
  have hbreak : (place.along n rest).lineBreak? = none :=
    Place.line_break_none (not_break_of_blank hrest)
  simp [quotedGap, take_gap hrest hplace, hbreak, hne]

theorem quoted_gap_breaks {n indent : Nat} {rest : List Char} (hindent : 0 < indent)
    (hrest : rest.head?.all (!isBlank ·) = true) {place : Place}
    (hplace : place.rest = '\n' :: (List.replicate n '\n' ++ (spaces indent ++ rest))) :
    ∃ behind : Place, behind.rest = rest ∧
      quotedGap place = .ok (foldBreaks '\n' (List.replicate n '\n'), behind) := by
  have htaken : place.takeWhile (fun c => c = ' ' || c = '\t') = ([], place) := by
    simp [Place.takeWhile, hplace, Place.advance]
  obtain ⟨behind, hbehind, hbreaks⟩ := quoted_breaks_feeds hindent hrest [] (indent + rest.length)
    (place.below (List.replicate n '\n' ++ (spaces indent ++ rest))) rfl
  refine ⟨behind, hbehind, ?_⟩
  have hfuel : (List.replicate n '\n' ++ (spaces indent ++ rest)).length + 1 =
      indent + rest.length + n + 1 := by
    simp only [List.length_append, List.length_replicate]
    omega
  rw [quotedGap, htaken]
  simp only [Place.line_break_feed hplace, Place.rest_below, hfuel, hbreaks]
  rfl

theorem read_escape {point : CodePoint} {e rest : List Char} (h : IsEscape point e) {place : Place}
    (hplace : place.rest = e ++ rest) :
    ∃ behind : Place, behind.rest = rest ∧ readEscape place = .ok ([point], behind) := by
  cases h with
  | letter h =>
      refine ⟨place.step, by simp [hplace], ?_⟩
      simp [readEscape, Place.head?, hplace, h]
  | digits hmark hwidth hvalues hlength hpoint =>
      rename_i mark digits values
      refine ⟨place.advance (digits.length + 1), by simp [hplace], ?_⟩
      have htaken : (place.rest.drop 1).take digits.length = digits := by simp [hplace]
      have hhead : place.head? = some mark := by simp [Place.head?, hplace]
      simp only [readEscape, hhead, hmark, hwidth, htaken, hvalues, hlength, if_true, hpoint]
      rfl

theorem read_escape_joined {indent : Nat} {rest : List Char} (hindent : 0 < indent)
    (hrest : rest.head?.all (!isBlank ·) = true) {place : Place}
    (hplace : place.rest = '\n' :: (spaces indent ++ rest)) :
    ∃ behind : Place, behind.rest = rest ∧ readEscape place = .ok ([], behind) := by
  obtain ⟨behind, hbehind, hbreaks⟩ := quoted_breaks_feeds (n := 0) hindent hrest []
    (indent + rest.length) (place.below (spaces indent ++ rest)) rfl
  refine ⟨behind, hbehind, ?_⟩
  have hhead : place.head? = some '\n' := by simp [Place.head?, hplace]
  have hfuel : (spaces indent ++ rest).length + 1 = indent + rest.length + 0 + 1 := by simp
  have hletter : escapedChar? '\n' = none := rfl
  have hwidth : escapeWidth? '\n' = none := rfl
  simp only [readEscape, hhead, hletter, hwidth, Place.line_break_feed hplace, Place.rest_below,
    hfuel, hbreaks]
  rfl

/-- Reading a quoted scalar adds a text while it goes from one place to another. -/
def QuotedReads (double : Bool) (place behind : Place) (t : Text) : Prop :=
  ∃ n, n + behind.rest.length ≤ place.rest.length ∧ ∀ fuel done,
    quotedFrom double done (fuel + n) place = quotedFrom double (t.reverse ++ done) fuel behind

namespace QuotedReads

variable {double : Bool} {place middle behind : Place} {s t : Text}

theorem refl (place : Place) : QuotedReads double place place [] :=
  ⟨0, by simp, fun _ _ => rfl⟩

theorem trans (h : QuotedReads double place middle s) (hnext : QuotedReads double middle behind t) :
    QuotedReads double place behind (s ++ t) := by
  obtain ⟨n, hn, hreads⟩ := h
  obtain ⟨m, hm, hnextReads⟩ := hnext
  refine ⟨m + n, by omega, fun fuel done => ?_⟩
  rw [← Nat.add_assoc, hreads, hnextReads, List.reverse_append, List.append_assoc]

/-- One step of reading. -/
theorem step (hlength : behind.rest.length < place.rest.length)
    (h : ∀ fuel done,
      quotedFrom double done (fuel + 1) place = quotedFrom double (t.reverse ++ done) fuel behind) :
    QuotedReads double place behind t :=
  ⟨1, by omega, h⟩

/-- Spaces that no line feed follows are read as they are. -/
theorem spaces {n : Nat} {rest : List Char} (hne : rest ≠ [])
    (hrest : rest.head?.all (!isBlank ·) = true) (hplace : place.rest = Yaml.spaces n ++ rest) :
    ∃ behind : Place, behind.rest = rest ∧
      QuotedReads double place behind (Text.ofChars (Yaml.spaces n)) := by
  cases n with
  | zero => exact ⟨place, hplace, refl place⟩
  | succ n =>
      refine ⟨place.along (n + 1) rest, rfl, step ?_ fun fuel done => ?_⟩
      · simp [hplace]
      · have hgap := quoted_gap_spaces hne hrest hplace
        rw [spaces_succ, List.cons_append] at hplace
        have hblank : isBlank ' ' = true := rfl
        simp only [quotedFrom, hplace, hblank, hgap, Char.reduceEq, and_false, if_false, if_true]

variable {rest : List Char}

theorem ink {c : Char} (hink : isInk c = true) (hquote : c ≠ quoteOf double)
    (hslash : double = true → c ≠ '\\') (hplace : place.rest = c :: rest) :
    QuotedReads double place place.step [.scalar c] := by
  refine step (by simp [hplace]) fun fuel done => ?_
  have hblank := not_blank_of_ink hink
  cases double with
  | false =>
      have hc : c ≠ '\'' := hquote
      simp [quotedFrom, hplace, hc, hblank]
  | true =>
      have hc : c ≠ '"' := hquote
      simp [quotedFrom, hplace, hc, hslash rfl, hblank]

theorem quote (hplace : place.rest = '\'' :: '\'' :: rest) :
    QuotedReads false place (place.advance 2) [.scalar '\''] := by
  have hlength : (place.advance 2).rest.length < place.rest.length := by
    simp only [Place.rest_advance, hplace, List.drop_succ_cons, List.drop_zero, List.length_cons]
    omega
  exact step hlength fun fuel done => by simp [quotedFrom, hplace]

theorem breaks {n indent : Nat} (hindent : 0 < indent)
    (hrest : rest.head?.all (!isBlank ·) = true)
    (hplace : place.rest = '\n' :: (List.replicate n '\n' ++ (Yaml.spaces indent ++ rest))) :
    ∃ behind : Place, behind.rest = rest ∧
      QuotedReads false place behind (Text.ofChars (foldBreaks '\n' (List.replicate n '\n'))) := by
  obtain ⟨behind, hbehind, hgap⟩ := quoted_gap_breaks hindent hrest hplace
  refine ⟨behind, hbehind, step ?_ fun fuel done => ?_⟩
  · rw [hbehind, hplace]
    simp
    omega
  · have hblank : isBlank '\n' = true := rfl
    simp [quotedFrom, hplace, hblank, hgap]

theorem escape {points : Text} {text : List Char} (hplace : place.rest = '\\' :: text)
    (hescape : ∃ behind : Place, behind.rest = rest ∧
      readEscape place.step = .ok (points, behind))
    (hlength : rest.length ≤ text.length) :
    ∃ behind : Place, behind.rest = rest ∧ QuotedReads true place behind points := by
  obtain ⟨behind, hbehind, hread⟩ := hescape
  refine ⟨behind, hbehind, step ?_ fun fuel done => ?_⟩
  · rw [hbehind, hplace, List.length_cons]
    omega
  · simp [quotedFrom, hplace, hread]

end QuotedReads

/-- The text that is spelled is read. Spaces may have been read before without being added. -/
theorem Spelled.reads {double : Bool} {indent : Nat} {t : Text} {w : List Char}
    (h : Spelled double indent t w) (hindent : 0 < indent) {rest : List Char}
    (hrest : rest.head? = some (quoteOf double)) (k : Nat) (place : Place)
    (hplace : place.rest = spaces k ++ (w ++ rest)) (hk : 0 < k → w.head? ≠ some '\n') :
    ∃ behind : Place, behind.rest = rest ∧
      QuotedReads double place behind (Text.ofChars (spaces k) ++ t) := by
  have hvisible : ∀ {text : List Char}, text.head?.all (!isBlank ·) = true →
      (text ++ rest).head?.all (!isBlank ·) = true := by
    intro text htext
    cases text with
    | nil => simp [hrest, not_blank_quote]
    | cons c text => exact htext
  -- What follows spaces begins with a visible character, so the spaces are read first.
  have hspaces : ∀ (text : List Char) {k : Nat} {place : Place},
      text.head?.all (!isBlank ·) = true → place.rest = spaces k ++ (text ++ rest) →
      ∃ middle : Place, middle.rest = text ++ rest ∧
        QuotedReads double place middle (Text.ofChars (spaces k)) := by
    intro text k place htext hplace
    refine QuotedReads.spaces (fun heq => ?_) (hvisible htext) hplace
    rw [(List.append_eq_nil_iff.1 heq).2] at hrest
    cases hrest
  induction h generalizing k place with
  | nil =>
      obtain ⟨middle, hmiddle, hfirst⟩ := hspaces [] rfl hplace
      exact ⟨middle, hmiddle, by simpa using hfirst⟩
  | space hnext h ih =>
      obtain ⟨behind, hbehind, hreads⟩ := ih (k + 1) place
        (by simpa [spaces_succ_end] using hplace) fun _ => hnext
      exact ⟨behind, hbehind, by simpa [spaces_succ_end, Text.ofChars] using hreads⟩
  | ink hink hquote hslash h ih =>
      obtain ⟨middle, hmiddle, hfirst⟩ := hspaces _ (by simp [not_blank_of_ink hink]) hplace
      obtain ⟨behind, hbehind, hreads⟩ := ih 0 middle.step (by simp [hmiddle])
        (absurd · (Nat.lt_irrefl 0))
      exact ⟨behind, hbehind, hfirst.trans ((QuotedReads.ink hink hquote hslash hmiddle).trans hreads)⟩
  | quote hdouble h ih =>
      subst hdouble
      obtain ⟨middle, hmiddle, hfirst⟩ := hspaces _ rfl hplace
      obtain ⟨behind, hbehind, hreads⟩ := ih 0 (middle.advance 2) (by simp [hmiddle])
        (absurd · (Nat.lt_irrefl 0))
      exact ⟨behind, hbehind, hfirst.trans ((QuotedReads.quote hmiddle).trans hreads)⟩
  | breaks hdouble n hnext h ih =>
      subst hdouble
      have hk : k = 0 := Nat.eq_zero_of_not_pos fun hpos => hk hpos rfl
      subst hk
      obtain ⟨middle, hmiddle, hfirst⟩ := QuotedReads.breaks hindent (hvisible hnext)
        (by simpa using hplace)
      obtain ⟨behind, hbehind, hreads⟩ := ih 0 middle hmiddle (absurd · (Nat.lt_irrefl 0))
      exact ⟨behind, hbehind, hfirst.trans hreads⟩
  | @escape _ e w t hdouble hescape _ h ih =>
      subst hdouble
      obtain ⟨middle, hmiddle, hfirst⟩ := hspaces _ rfl hplace
      have hmiddle : middle.rest = '\\' :: (e ++ (w ++ rest)) := by simpa using hmiddle
      obtain ⟨next, hnext, hsecond⟩ := QuotedReads.escape hmiddle
        (read_escape hescape (by simp [hmiddle] : middle.step.rest = e ++ (w ++ rest))) (by simp)
      obtain ⟨behind, hbehind, hreads⟩ := ih 0 next hnext (absurd · (Nat.lt_irrefl 0))
      exact ⟨behind, hbehind, hfirst.trans (hsecond.trans hreads)⟩
  | joined hdouble hnext h ih =>
      subst hdouble
      obtain ⟨middle, hmiddle, hfirst⟩ := hspaces _ rfl hplace
      rename_i t w
      have hmiddle : middle.rest = '\\' :: '\n' :: (spaces indent ++ (w ++ rest)) := by
        simpa using hmiddle
      obtain ⟨next, hnext, hsecond⟩ := QuotedReads.escape hmiddle
        (read_escape_joined hindent (hvisible hnext) (by simp [hmiddle])) (by simp; omega)
      obtain ⟨behind, hbehind, hreads⟩ := ih 0 next hnext (absurd · (Nat.lt_irrefl 0))
      exact ⟨behind, hbehind, hfirst.trans (hsecond.trans hreads)⟩

/-- What stands between quotes is read. -/
theorem quoted_scalar_spelled {double : Bool} {indent : Nat} {t : Text} {w rest : List Char}
    (h : Spelled double indent t w) (hindent : 0 < indent)
    (hrest : double = false → rest.head? ≠ some '\'') {place : Place}
    (hplace : place.rest = quoteOf double :: (w ++ quoteOf double :: rest)) :
    ∃ behind : Place, behind.rest = rest ∧ quotedScalar double place = .ok (t, behind) := by
  obtain ⟨last, hlast, n, hn, hreads⟩ := h.reads hindent
    (rfl : (quoteOf double :: rest).head? = _) 0 place.step (by simp [hplace])
    (absurd · (Nat.lt_irrefl 0))
  have hlength : (place.rest.length + 1) = (place.rest.length - n) + 1 + n := by
    rw [hplace]
    simp [hplace, hlast] at hn ⊢
    omega
  refine ⟨last.step, by simp [hlast], ?_⟩
  rw [quotedScalar, hlength, hreads]
  cases double with
  | false =>
      have hlast : last.rest = '\'' :: rest := hlast
      have hnext : rest.head? ≠ some '\'' := hrest rfl
      simp [quotedFrom, hlast, hnext, Text.ofChars]
  | true =>
      have hlast : last.rest = '"' :: rest := hlast
      simp [quotedFrom, hlast, Text.ofChars]

end Yaml

end ProgramInterface
