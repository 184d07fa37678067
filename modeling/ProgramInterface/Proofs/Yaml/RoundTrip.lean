import ProgramInterface.Proofs.Yaml.Construction
import ProgramInterface.Proofs.Yaml.Escaped

/-!
# Reading what was written

A mapping that was written is a spelling of itself (`write_spelled`), so it is read back as what it was
(`read_write`).
-/

namespace ProgramInterface

namespace Yaml

namespace Output

variable {level : Nat} {members : List (Text × Output)}

/-! ## Scalars -/

theorem word_of_decimal (n : Nat) : IsWord (Nat.toDigits 10 n) where
  ne_nil := Nat.toDigits_ne_nil
  ink c hc := by
    obtain ⟨hlow, hhigh⟩ := IntegerText.decimal_of_mem hc
    have hleast : '!' ≤ c := Nat.le_trans (by decide) hlow
    have hmost : c ≤ '~' := Nat.le_trans hhigh (by decide)
    simp [isInk, hleast, hmost]
  head hhead := (IntegerText.decimal_of_mem (List.mem_of_mem_head? hhead)).ne (.inl (by decide)) rfl
  last hlast := (IntegerText.decimal_of_mem (List.mem_of_getLast? hlast)).ne (.inr (by decide)) rfl

theorem starts_plain_decimal (n : Nat) : Scanner.startsPlain (Nat.toDigits 10 n) = true := by
  obtain ⟨c, rest, hdigits⟩ := List.exists_cons_of_ne_nil (Nat.toDigits_ne_nil (n := n) (b := 10))
  have hc : IntegerText.IsDecimal c :=
    IntegerText.decimal_of_mem (n := n) (hdigits ▸ List.mem_cons_self ..)
  have hindicators : ∀ d ∈ Scanner.indicators, d.toNat < 0x30 ∨ 0x39 < d.toNat := by decide
  have hnone : c ∉ Scanner.indicators := fun hmem => hc.ne (hindicators c hmem) rfl
  simp [hdigits, Scanner.startsPlain, hnone]

theorem single_tail_of_style {t : Text} (h : style t = .single) : SingleTail t := by
  have hallows : allowsSingle t = true := by
    unfold style at h
    split at h
    · cases h
    · split at h
      · rename_i hallows
        exact hallows
      · cases h
  simp only [allowsSingle, Bool.and_eq_true, Bool.not_eq_true', List.all_eq_true] at hallows
  exact ⟨hallows.1.1, hallows.1.2, hallows.2⟩

/-- A text is written as a spelling of itself. -/
theorem add_text_spelled {indent : Nat} (hindent : indent < bestWidth) (t : Text) (line : Line) :
    ∃ w, ScalarSpelled indent t (style t = .plain) w ∧
      GoesOn line (' ' :: w) (addText indent t line) := by
  unfold addText
  cases hstyle : style t with
  | plain =>
      obtain ⟨htag, hplain⟩ := style_eq_plain_iff.1 hstyle
      have hne : t ≠ [] := by
        rintro rfl
        revert htag
        decide
      obtain ⟨content, w, rfl, hspelled, hstart, hgoes⟩ :=
        add_plain_spelled hplain hne indent (line.add " ")
      exact ⟨w, .plain hspelled hstart, (GoesOn.add line [' ']).trans hgoes⟩
  | single =>
      obtain ⟨w, hspelled, hgoes, -⟩ :=
        add_single_spelled indent t (single_tail_of_style hstyle) true (line.add " '")
      exact ⟨'\'' :: (w ++ ['\'']), .quoted hspelled,
        (GoesOn.add line [' ', '\'']).trans (hgoes.trans (GoesOn.add _ ['\'']))⟩
  | double =>
      obtain ⟨w, hgoes, hspelled⟩ :=
        add_double_spelled hindent t.length t (line.add " \"") [] 0 false nofun nofun nofun
      have hquoted := ScalarSpelled.quoted hspelled
      exact ⟨'"' :: (w ++ ['"']), hquoted,
        (GoesOn.add line [' ', '"']).trans (hgoes.trans (GoesOn.add _ ['"']))⟩

theorem add_word_spelled {v : Output} {word : List Char} (hword : IsWord word)
    (hstart : Scanner.startsPlain word = true) (hscalar : v.scalar? = some (Text.ofChars word, true))
    {line : Line} (hadd : add level line v = line.add (Text.ofChars (' ' :: word))) :
    ∃ content isPlain w, v.scalar? = some (content, isPlain) ∧
      ScalarSpelled (2 * level) content isPlain w ∧ GoesOn line (' ' :: w) (add level line v) :=
  ⟨_, _, word, hscalar, .plain (.word hword) hstart, hadd ▸ GoesOn.add line _⟩

theorem starts_plain_name {name : List Char} (h : Scanner.IsName name) :
    Scanner.startsPlain name = true := by
  obtain ⟨c, rest, rfl⟩ := List.exists_cons_of_ne_nil h.ne_nil
  have hnone := Scanner.not_indicator_of_key (h.key c (List.mem_cons_self ..))
  simp [Scanner.startsPlain, hnone]

/-- A scalar is written as a spelling of its content. -/
theorem add_scalar_spelled {v : Output} (hv : v.IsScalar) (hlevel : 2 * level < bestWidth)
    (line : Line) :
    ∃ content isPlain w, v.scalar? = some (content, isPlain) ∧
      ScalarSpelled (2 * level) content isPlain w ∧ GoesOn line (' ' :: w) (add level line v) := by
  cases hv with
  | null =>
      have hname : Scanner.IsName ['n', 'u', 'l', 'l'] := ⟨by decide, by decide, by decide⟩
      exact add_word_spelled hname.word (starts_plain_name hname) rfl rfl
  | bool value =>
      have htrue : Scanner.IsName ['t', 'r', 'u', 'e'] := ⟨by decide, by decide, by decide⟩
      have hfalse : Scanner.IsName ['f', 'a', 'l', 's', 'e'] := ⟨by decide, by decide, by decide⟩
      cases value with
      | true => exact add_word_spelled htrue.word (starts_plain_name htrue) rfl rfl
      | false => exact add_word_spelled hfalse.word (starts_plain_name hfalse) rfl rfl
  | int n => exact add_word_spelled (word_of_decimal n) (starts_plain_decimal n) rfl rfl
  | text value =>
      obtain ⟨w, hspelled, hgoes⟩ := add_text_spelled hlevel value line
      exact ⟨_, _, w, rfl, hspelled, hgoes⟩

/-! ## Members -/

/-- Characters behind a line; a text begins without the line end in front of its first line. -/
def GoesOnOrBegins (line : Line) (w : List Char) (last : Line) : Prop :=
  GoesOn line (if line.done.isEmpty then w.tail else w) last

/-- A member begins on a line of its own. -/
theorem begin_member {line last : Line} (hline : line.done = [] → level = 0) {w : List Char}
    (h : GoesOn (if line.done.isEmpty then line else line.break (2 * level)) w last) :
    GoesOnOrBegins line ('\n' :: (spaces (2 * level) ++ w)) last := by
  unfold GoesOnOrBegins
  by_cases hempty : line.done.isEmpty = true
  · obtain rfl := hline (List.isEmpty_iff.1 hempty)
    simpa [hempty] using h
  · simp only [hempty] at h ⊢
    exact (GoesOn.next_line line (2 * level)).trans h

theorem GoesOnOrBegins.goes_on {line last : Line} {w : List Char} (h : GoesOnOrBegins line w last)
    (hline : line.done ≠ []) : GoesOn line w last := by
  rwa [GoesOnOrBegins, if_neg (by simpa using hline)] at h

theorem GoesOn.done_ne_nil {line last : Line} {w : List Char} (h : GoesOn line w last) (hw : w ≠ []) :
    last.done ≠ [] := by
  rw [GoesOn] at h
  simp [h, Text.ofChars, hw]

theorem add_name (line : Line) (name : List Char) :
    GoesOn line (name ++ [':']) (line.add (Text.ofChars name ++ ":")) := by
  have hname : (Text.ofChars name ++ ":" : Text) = Text.ofChars (name ++ [':']) := by
    simp only [Text.ofChars, List.map_append]
    rfl
  rw [hname]
  exact GoesOn.add line _

/-- Members are written as a spelling of themselves. -/
theorem add_members_spelled (h : Writable level members) (line : Line)
    (hline : line.done = [] → level = 0) :
    ∃ w, BlockSpelled level members w ∧ GoesOnOrBegins line w (addMembers level line members) := by
  induction h generalizing line with
  | nil =>
      refine ⟨[], .nil, ?_⟩
      simpa [GoesOnOrBegins, addMembers] using GoesOn.refl line
  | @scalar level name v members hname hv hlevel h ih =>
      have hnamed := add_name (if line.done.isEmpty then line else line.break (2 * level)) name
      obtain ⟨content, isPlain, w, hscalar, hspelled, hvalue⟩ := add_scalar_spelled hv hlevel _
      -- The name, its value and the other members are spelled one behind the other.
      have hmember := hnamed.trans hvalue
      have hne := hmember.done_ne_nil (by simp)
      obtain ⟨others, hothers, hrest⟩ := ih _ fun hempty => absurd hempty hne
      have hall := hmember.trans (hrest.goes_on hne)
      refine ⟨_, .scalar hname.letters hscalar hspelled hothers, begin_member hline ?_⟩
      rw [addMembers]
      simpa using hall
  | @mapping level name inner members hname hne hinner h ihInner ih =>
      have hnamed := add_name (if line.done.isEmpty then line else line.break (2 * level)) name
      have hnamedNe := hnamed.done_ne_nil (by simp)
      obtain ⟨w, hspelled, hvalue⟩ := ihInner _ fun hempty => absurd hempty hnamedNe
      have hmember := hnamed.trans (hvalue.goes_on hnamedNe)
      have hmemberNe := hmember.done_ne_nil (by simp)
      obtain ⟨others, hothers, hrest⟩ := ih _ fun hempty => absurd hempty hmemberNe
      have hall := hmember.trans (hrest.goes_on hmemberNe)
      refine ⟨_, .mapping hname.letters hne hspelled hothers, begin_member hline ?_⟩
      have hadd : ∀ line, add (level + 1) line (.mapping inner) = addMembers (level + 1) line inner :=
        fun line => by
          have hfull : inner.isEmpty = false := List.isEmpty_eq_false_iff.2 hne
          simp [add, hfull]
      rw [addMembers, hadd]
      simpa using hall

/-- A mapping is written as a spelling of itself, with the line end in front of the first line at the
end. -/
theorem write_spelled (h : Writable 0 members) (hne : members ≠ []) :
    ∃ w, BlockSpelled 0 members ('\n' :: w) ∧ write members = Text.ofChars (w ++ ['\n']) := by
  obtain ⟨w, hspelled, hgoes⟩ := add_members_spelled h ⟨[], 0⟩ fun _ => rfl
  obtain ⟨w, rfl⟩ : ∃ v, w = '\n' :: v := by
    cases hspelled with
    | nil => exact absurd rfl hne
    | scalar => exact ⟨_, rfl⟩
    | mapping => exact ⟨_, rfl⟩
  have hdone : (addMembers 0 ⟨[], 0⟩ members).done = (Text.ofChars w).reverse ++ [] := hgoes
  refine ⟨w, hspelled, ?_⟩
  rw [write, hdone]
  simp [Text.ofChars]

end Output

/-- A mapping that was written is read back. -/
theorem read_write {members : List (Text × Output)} (h : Writable 0 members) (hne : members ≠ []) :
    ∃ chars, Output.write members = Text.ofChars chars ∧ (∀ c ∈ chars, isWritten c = true) ∧
      read chars = .ok (Output.mapping members).value := by
  obtain ⟨w, hspelled, hwrite⟩ := Output.write_spelled h hne
  refine ⟨w ++ ['\n'], hwrite, List.forall_mem_append.2 ⟨?_, by decide⟩, read_spelled h hspelled⟩
  exact (List.forall_mem_cons.1 hspelled.written).2

end Yaml

end ProgramInterface
