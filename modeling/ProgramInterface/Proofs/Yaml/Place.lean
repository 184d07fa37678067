import ProgramInterface.Yaml.Place

/-!
# Moving through a text

Where a place is after some characters of its line, and after a line feed. The number of the line and
the index matter only while a key is open; behind a line feed the column alone tells how far a line is
moved in.
-/

namespace ProgramInterface

namespace Yaml

/-- Whether a character stays on its line and takes one column. -/
def isInline (c : Char) : Bool :=
  !isBreak c && c ≠ '\uFEFF'

theorem not_break_of_inline {c : Char} (h : isInline c = true) : isBreak c = false := by
  simpa using (Bool.and_eq_true_iff.1 h).1

/-- Some spaces. -/
abbrev spaces (n : Nat) : List Char :=
  List.replicate n ' '

theorem spaces_succ (n : Nat) : spaces (n + 1) = ' ' :: spaces n := rfl

theorem spaces_succ_end (n : Nat) : spaces (n + 1) = spaces n ++ [' '] :=
  List.replicate_succ'

theorem inline_spaces (n : Nat) : ∀ c ∈ spaces n, isInline c = true := by
  intro c hc
  rw [List.eq_of_mem_replicate hc]
  decide

namespace Place

variable {place : Place} {chars rest : List Char}

/-- The place `n` characters further on the line. -/
def along (n : Nat) (rest : List Char) (place : Place) : Place :=
  ⟨rest, place.index + n, place.line, place.column + n⟩

/-- The place at the beginning of the next line. -/
def below (rest : List Char) (place : Place) : Place :=
  ⟨rest, place.index + 1, place.line + 1, 0⟩

@[simp]
theorem rest_along (n : Nat) : (place.along n rest).rest = rest := rfl

@[simp]
theorem index_along (n : Nat) : (place.along n rest).index = place.index + n := rfl

@[simp]
theorem line_along (n : Nat) : (place.along n rest).line = place.line := rfl

@[simp]
theorem column_along (n : Nat) : (place.along n rest).column = place.column + n := rfl

@[simp]
theorem rest_below : (place.below rest).rest = rest := rfl

@[simp]
theorem column_below : (place.below rest).column = 0 := rfl

@[simp]
theorem along_along (n m : Nat) (next : List Char) :
    (place.along n rest).along m next = place.along (n + m) next := by
  simp [along, Nat.add_assoc]

theorem along_zero (h : place.rest = rest) : place.along 0 rest = place := by
  subst h
  rfl

@[simp]
theorem rest_step : place.step.rest = place.rest.tail := by
  unfold step
  split
  · rename_i hrest
    rw [hrest]
    rfl
  · rename_i hrest
    rw [hrest]
    split <;> rfl

@[simp]
theorem rest_advance (n : Nat) : (place.advance n).rest = place.rest.drop n := by
  induction n generalizing place with
  | zero => rfl
  | succ n ih => rw [advance, ih, rest_step, List.drop_tail]

theorem step_inline {c : Char} (hrest : place.rest = c :: rest) (hc : isInline c = true) :
    place.step = place.along 1 rest := by
  have hbreak := not_break_of_inline hc
  have hmark : c ≠ '\uFEFF' := of_decide_eq_true (Bool.and_eq_true_iff.1 hc).2
  simp [step, hrest, hbreak, hmark, along]

theorem step_feed (hrest : place.rest = '\n' :: rest) : place.step = place.below rest := by
  rw [step, hrest]
  rfl

/-- The place behind some characters of a line. -/
theorem advance_inline (h : ∀ c ∈ chars, isInline c = true) (hrest : place.rest = chars ++ rest) :
    place.advance chars.length = place.along chars.length rest := by
  induction chars generalizing place with
  | nil => exact (along_zero hrest).symm
  | cons c chars ih =>
      obtain ⟨hc, hchars⟩ := List.forall_mem_cons.1 h
      rw [List.length_cons, advance, step_inline hrest hc, ih hchars rfl, along_along,
        Nat.add_comm]

/-- The characters of a line that satisfy a condition, up to one that does not. -/
theorem take_while_inline {p : Char → Bool} (hp : ∀ c ∈ chars, p c = true)
    (h : ∀ c ∈ chars, isInline c = true) (hstop : rest.head?.all (!p ·) = true)
    (hrest : place.rest = chars ++ rest) :
    place.takeWhile p = (chars, place.along chars.length rest) := by
  have hnone : rest.takeWhile p = [] := by
    cases rest with
    | nil => rfl
    | cons c rest => exact List.takeWhile_cons_of_neg (by simpa using hstop)
  have htaken : place.rest.takeWhile p = chars := by
    rw [hrest, List.takeWhile_append_of_pos hp, hnone, List.append_nil]
  rw [takeWhile, htaken, advance_inline h hrest]

theorem skip_spaces {n : Nat} (hstop : rest.head? ≠ some ' ')
    (hrest : place.rest = spaces n ++ rest) : place.skipSpaces = place.along n rest := by
  have htaken := take_while_inline (p := fun c => c = ' ')
    (fun c hc => decide_eq_true (List.eq_of_mem_replicate hc)) (inline_spaces n)
    (by cases rest <;> simp_all) hrest
  rw [skipSpaces, htaken, List.length_replicate]

theorem line_break_feed (hrest : place.rest = '\n' :: rest) :
    place.lineBreak? = some ('\n', place.below rest) := by
  have hstep := step_feed hrest
  simp [lineBreak?, hrest, hstep]

theorem line_break_none (h : place.rest.head?.all (!isBreak ·) = true) :
    place.lineBreak? = none := by
  unfold lineBreak?
  split
  · rename_i hrest
    rw [hrest] at h
    cases h
  · rename_i c _ _ hrest
    rw [hrest] at h
    simp only [List.head?_cons, Option.all_some, isBreak, Bool.not_eq_true', Bool.or_eq_false_iff,
      decide_eq_false_iff_not] at h
    simp [h]
  · rfl

theorem skip_comment_none (h : place.rest.head? ≠ some '#') : place.skipComment = place := by
  simp [skipComment, sees, h]

end Place

end Yaml

end ProgramInterface
