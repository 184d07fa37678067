import Mathlib.Data.List.TakeWhile
import ProgramInterface.Grammar.Lexical

/-!
# What words and numbers are spelled with

The lexical rules for names and for integers read name characters only, apart from the mark of a raw
name (`name_chars`, `integer_chars`).
-/

namespace ProgramInterface

namespace Lexical

theorem take_take_while_length {α : Type} (p : α → Bool) (text : List α) :
    text.take (text.takeWhile p).length = text.takeWhile p :=
  (List.prefix_iff_eq_take.1 (List.takeWhile_prefix p)).symm

/-! ## Names -/

/-- What the lexical rule for names reads are name characters, and perhaps the mark of a raw name. -/
theorem name_chars {source : List Char} {n : Nat} (h : name? source = some n) :
    ∀ c ∈ source.take n, c = '#' ∨ isNameStart c = true ∨ isNameNext c = true := by
  have hrun : ∀ rest : List Char, ∀ c ∈ rest.take (nameRun rest), isNameNext c = true := by
    intro rest c hc
    rw [nameRun, take_take_while_length] at hc
    exact List.mem_takeWhile_imp hc
  intro c hc
  -- A raw name, the letter of its mark alone, or a plain name.
  unfold name? at h
  split at h
  · rename_i first rest
    split at h
    · rename_i hfirst
      cases h
      rw [Nat.add_comm] at hc
      simp only [List.take_succ_cons, List.mem_cons] at hc
      rcases hc with rfl | rfl | rfl | hrest
      · exact .inr (.inl (by decide))
      · exact .inl rfl
      · exact .inr (.inl hfirst)
      · exact .inr (.inr (hrun rest c hrest))
    · cases h
      simp only [List.take_succ_cons, List.take_zero, List.mem_singleton] at hc
      subst hc
      exact .inr (.inl (by decide))
  · rename_i first rest _
    split at h
    · rename_i hfirst
      cases h
      rw [Nat.add_comm, List.take_succ_cons] at hc
      rcases List.mem_cons.1 hc with rfl | hrest
      · exact .inr (.inl hfirst)
      · exact .inr (.inr (hrun rest c hrest))
    · cases h
  · cases h

/-! ## Integers -/

/-- The digits of all bases are digits, letters up to `f`, and the underscore. -/
theorem digit_ranges {base c : Char} (h : isDigitOf base c = true) :
    (48 ≤ c.toNat ∧ c.toNat ≤ 57) ∨ (65 ≤ c.toNat ∧ c.toNat ≤ 70) ∨
      (97 ≤ c.toNat ∧ c.toNat ≤ 102) ∨ c.toNat = 95 := by
  have hrange {first last : Char} (h : (first ≤ c && c ≤ last) = true) :
      first.toNat ≤ c.toNat ∧ c.toNat ≤ last.toNat := by
    simpa [Char.le_def, UInt32.le_iff_toNat_le] using h
  unfold isDigitOf at h
  rw [Bool.or_eq_true, decide_eq_true_eq] at h
  rcases h with rfl | h
  · exact .inr (.inr (.inr rfl))
  split at h
  · rw [Bool.or_eq_true, decide_eq_true_eq, decide_eq_true_eq] at h
    rcases h with rfl | rfl <;> decide
  · have height := hrange h
    exact .inl ⟨height.1, Nat.le_trans height.2 (by decide)⟩
  · rw [Bool.or_eq_true, Bool.or_eq_true] at h
    rcases h with (h | h) | h
    · exact .inl (hrange h)
    · exact .inr (.inr (.inl (hrange h)))
    · exact .inr (.inl (hrange h))
  · exact .inl (hrange h)

theorem name_next_of_digit {base c : Char} (h : isDigitOf base c = true) : isNameNext c = true := by
  have hnext : ∀ n < 103, (48 ≤ n ∧ n ≤ 57) ∨ (65 ≤ n ∧ n ≤ 70) ∨ (97 ≤ n ∧ n ≤ 102) ∨ n = 95 →
      isNameNext (Char.ofNat n) = true := by decide
  have hranges := digit_ranges h
  have hlt : c.toNat < 103 := by omega
  exact Char.ofNat_toNat c ▸ hnext c.toNat hlt hranges

theorem name_next_take_while (base : Char) (text : List Char) :
    ∀ c ∈ text.takeWhile (isDigitOf base), isNameNext c = true :=
  fun _ hc => name_next_of_digit (List.mem_takeWhile_imp hc)

/-- The type behind a literal is spelled with letters and digits. -/
theorem suffix_chars (text : List Char) :
    ∀ c ∈ text.take (suffixLength text), isNameNext c = true := by
  unfold suffixLength
  cases hfind : numberSuffixes.find? (·.isPrefixOf text) with
  | none => simp
  | some suffix =>
      have hprefix : suffix <+: text := by simpa using List.find?_some hfind
      have hmem := List.mem_of_find?_eq_some hfind
      rw [Option.elim_some, ← List.prefix_iff_eq_take.1 hprefix]
      exact (by decide : ∀ suffix ∈ numberSuffixes, ∀ c ∈ suffix, isNameNext c = true) suffix hmem

theorem plain_integer_chars {text : List Char} {n : Nat}
    (h : (match text with
      | c :: _ => if isDigit c then some (text.takeWhile (isDigitOf 'd')).length else none
      | [] => none) = some n) : ∀ c ∈ text.take n, isNameNext c = true := by
  split at h
  · split at h
    · cases h
      rw [take_take_while_length]
      exact name_next_take_while 'd' _
    · cases h
  · cases h

/-- What the lexical rule for integers reads are name characters. -/
theorem integer_chars {text : List Char} {n : Nat} (h : integer? text = some n) :
    ∀ c ∈ text.take n, isNameNext c = true := by
  unfold integer? at h
  obtain ⟨digits, hdigits, rfl⟩ := Option.map_eq_some_iff.1 h
  dsimp only at hdigits
  have hfront : ∀ c ∈ text.take digits, isNameNext c = true := by
    split at hdigits
    · rename_i base rest
      split at hdigits
      · rename_i hbase
        cases hdigits
        intro c hc
        rw [Nat.add_comm 2, List.take_succ_cons, List.take_succ_cons, take_take_while_length] at hc
        rcases List.mem_cons.1 hc with rfl | hc
        · decide
        · rcases List.mem_cons.1 hc with rfl | hc
          · rcases hbase.1 with rfl | rfl | rfl <;> decide
          · exact name_next_take_while base rest c hc
      · exact plain_integer_chars hdigits
    · exact plain_integer_chars hdigits
  rw [List.take_add]
  intro c hc
  rcases List.mem_append.1 hc with hdigit | hsuffix
  · exact hfront c hdigit
  · exact suffix_chars _ c hsuffix

end Lexical

end ProgramInterface
