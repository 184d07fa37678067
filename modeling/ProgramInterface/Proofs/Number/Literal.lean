import ProgramInterface.Number.Literal
import ProgramInterface.Proofs.Grammar.Lexical
import ProgramInterface.Proofs.Grammar.Nodes
import ProgramInterface.Proofs.Text.Ends

/-!
# The sign of integer literals

No integer literal is negative: the lexical rule for integers reads no minus sign
(`Lexical.IsInteger.no_minus`), and without one no text is read as a negative number
(`IntegerText.read_nonneg`).
-/

namespace ProgramInterface

/-! ## Texts that the lexical rule reads -/

namespace Lexical

theorem IsInteger.no_minus {text : String} (h : IsInteger text) : '-' ∉ text.toList := by
  obtain ⟨source, n, hn, rfl⟩ := h
  rw [String.toList_ofList]
  intro hminus
  have hnot : isNameNext '-' = false := by decide
  exact Bool.false_ne_true (hnot.symm.trans (integer_chars hn '-' hminus))

end Lexical

/-! ## Reading -/

namespace IntegerText

/-- Only the minus sign itself is read as one. -/
theorem plain_ne_minus {c : CodePoint} (h : c ≠ .scalar '-') : plain c ≠ '-' := by
  unfold plain
  split
  · rename_i char
    split
    · exact fun heq => h (congrArg _ heq)
    · split
      · decide
      · split
        · rename_i d hd
          have hlt : d < 10 := by
            obtain ⟨start, hstart, rfl⟩ := Option.map_eq_some_iff.1 hd
            have hrange := List.find?_some hstart
            simp only [Bool.and_eq_true, decide_eq_true_eq] at hrange
            omega
          have hdigits : ∀ d < 10, Nat.digitChar d ≠ '-' := by decide
          exact hdigits d hlt
        · decide
  · decide

theorem split_sign_of_no_minus {chars : List Char} (h : '-' ∉ chars) :
    (splitSign chars).1 = false := by
  unfold splitSign
  split
  · rfl
  · simp at h
  · rfl

/-- A text without a minus sign is read as a natural number or not at all. -/
theorem read_nonneg {base : Nat} {t : Text} {v : Int} (h : .scalar '-' ∉ t)
    (hv : read base t = .ok v) : 0 ≤ v := by
  have hplain : '-' ∉ (t.map plain).dropWhile isGap := by
    intro hmem
    obtain ⟨c, hc, hminus⟩ := List.mem_map.1 ((List.dropWhile_suffix isGap).subset hmem)
    exact plain_ne_minus (fun heq => h (heq ▸ hc)) hminus
  unfold read readChars at hv
  have hsign := split_sign_of_no_minus hplain
  -- Only the sign matters, so the digits behind it may be any.
  generalize splitSign _ = signed at hv hsign
  obtain ⟨negative, chars⟩ := signed
  cases hsign
  simp only [bind, Except.bind, pure, Except.pure] at hv
  split at hv
  · cases hv
  · split at hv
    · cases hv
    · split at hv
      · cases hv
        exact Int.natCast_nonneg _
      · cases hv

end IntegerText

/-! ## Values -/

namespace IntegerLiteral

theorem drop_end_subset {ending t kept : Text} (h : Text.dropEnd? ending t = some kept) :
    kept ⊆ t := by
  obtain rfl := Text.drop_end_eq_some.1 h
  exact List.subset_append_left _ _

theorem drop_type_subset (t : Text) : dropType t ⊆ t := by
  unfold dropType
  cases hkept : typeNames.findSome? fun name => Text.dropEnd? name t with
  | none => exact fun _ h => h
  | some kept =>
      obtain ⟨_, name, _, _, hdrop, _⟩ := List.findSome?_eq_some_iff.1 hkept
      exact drop_end_subset hdrop

theorem drop_suffix_subset (t : Text) : dropSuffix t ⊆ t := by
  unfold dropSuffix
  split
  · rename_i line hline
    dsimp only
    split
    · intro c hc
      rcases List.mem_append.1 hc with hkept | hend
      · exact drop_end_subset hline (drop_type_subset line hkept)
      · rw [Text.drop_end_eq_some.1 hline]
        exact List.mem_append_right _ hend
    · exact fun _ h => h
  · exact drop_type_subset t

theorem split_base_subset (t : Text) : (splitBase t).2 ⊆ t := by
  unfold splitBase
  split
  · split <;> intro c hc <;> simp_all
  · exact fun _ h => h

/-- An integer literal is never negative. -/
theorem value_nonneg {text : String} {v : Int} (h : Lexical.IsInteger text)
    (hv : value? (Text.ofString text) = some v) : 0 ≤ v := by
  have hminus : CodePoint.scalar '-' ∉ Text.ofString text := by
    simpa [Text.ofString, Text.ofChars] using h.no_minus
  have hdigits : CodePoint.scalar '-' ∉
      (splitBase (dropSuffix ((Text.ofString text).filter (· != .scalar '_')))).2 :=
    fun hmem => hminus
      ((List.mem_filter.1 (drop_suffix_subset _ (split_base_subset _ hmem))).1)
  unfold value? at hv
  -- Nothing is known of the base, and nothing is needed: in none is a sign read that is not there.
  generalize splitBase _ = based at hdigits hv
  obtain ⟨base, digits⟩ := based
  dsimp only at hv
  cases hread : IntegerText.read base digits with
  | error fault =>
      rw [hread] at hv
      cases hv
  | ok value =>
      rw [hread] at hv
      cases hv
      exact IntegerText.read_nonneg hdigits hread

end IntegerLiteral

end ProgramInterface
