import Mathlib.Data.List.Basic
import ProgramInterface.Text.Case

/-!
# Ends of texts

What dropping an ending leaves (`drop_end_eq_some`), and that putting the first letter in lower case
leaves no text empty (`lower_first_eq_nil`), because every entry of the case tables leads to a code
point.
-/

namespace ProgramInterface

namespace Text

/-! ## Endings -/

theorem drop_end_append (front ending : Text) : dropEnd? ending (front ++ ending) = some front := by
  have hsuffix : ending.isSuffixOf (front ++ ending) = true :=
    List.isSuffixOf_iff_suffix.2 (List.suffix_append ..)
  rw [dropEnd?, if_pos hsuffix, List.length_append, Nat.add_sub_cancel, List.take_left]

theorem drop_end_of_not_suffix {ending t : Text} (h : ¬ ending <:+ t) : dropEnd? ending t = none :=
  if_neg fun hsuffix => h (List.isSuffixOf_iff_suffix.1 hsuffix)

theorem drop_end_eq_some {ending t front : Text} :
    dropEnd? ending t = some front ↔ t = front ++ ending := by
  constructor
  · intro h
    by_cases hsuffix : ending <:+ t
    · obtain ⟨kept, rfl⟩ := hsuffix
      rw [drop_end_append] at h
      cases h
      rfl
    · rw [drop_end_of_not_suffix hsuffix] at h
      cases h
  · rintro rfl
    exact drop_end_append front ending

end Text

/-! ## Letters in lower case -/

namespace CaseTable

/-- A shift comes from an entry that covers the number. -/
theorem exists_entry_of_shift {table : List (Nat × Nat × Nat × Int)} {n : Nat} {shift : Int}
    (h : shift? table n = some shift) :
    ∃ first last step, (first, last, step, shift) ∈ table ∧ first ≤ n ∧ n ≤ last := by
  induction table with
  | nil => cases h
  | cons entry rest ih =>
      obtain ⟨first, last, step, found⟩ := entry
      rw [shift?] at h
      split at h
      · rename_i hcovers
        cases h
        exact ⟨first, last, step, .head _, hcovers.1, hcovers.2.1⟩
      · obtain ⟨first, last, step, hentry, hrange⟩ := ih h
        exact ⟨first, last, step, .tail _ hentry, hrange⟩

/-- Whether an entry of a table leads to numbers of code points. -/
def staysInRange : Nat × Nat × Nat × Int → Bool
  | (first, last, _, shift) => 0 ≤ (first : Int) + shift && (last : Int) + shift < 0x110000

theorem lower_stays : lower.all staysInRange = true := by
  decide +kernel

end CaseTable

namespace CodePoint

theorem of_nat_is_some {n : Nat} (h : n < 0x110000) : (ofNat? n).isSome = true := by
  unfold ofNat?
  by_cases hvalid : n.isValidChar
  · rw [dif_pos hvalid]
    rfl
  · have hsurrogate : 0xD800 ≤ n ∧ n < 0xE000 := by
      unfold Nat.isValidChar at hvalid
      omega
    rw [dif_neg hvalid, dif_pos hsurrogate]
    rfl

theorem lower_ne_nil (c : CodePoint) : c.lower ≠ [] := by
  unfold lower mapCase
  split
  · rename_i targets htargets
    obtain ⟨front, back, heq, _⟩ := List.lookup_eq_some_iff.1 htargets
    have hentry : (c.val, targets) ∈ CaseTable.lowerSpecial := by simp [heq]
    have hall : ∀ entry ∈ CaseTable.lowerSpecial, entry.2.filterMap ofNat? ≠ [] := by decide
    exact hall _ hentry
  · split
    · rename_i shift hshift
      obtain ⟨first, last, step, hentry, hfirst, hlast⟩ := CaseTable.exists_entry_of_shift hshift
      have hrange := List.all_eq_true.1 CaseTable.lower_stays _ hentry
      rw [CaseTable.staysInRange, Bool.and_eq_true, decide_eq_true_eq, decide_eq_true_eq] at hrange
      have hsome := of_nat_is_some (n := (c.val + shift).toNat) (by omega)
      intro hnil
      rw [Option.toList_eq_nil_iff.1 hnil] at hsome
      cases hsome
    · exact List.cons_ne_nil _ _

end CodePoint

theorem Text.lower_first_eq_nil {t : Text} : t.lowerFirst = [] ↔ t = [] := by
  cases t with
  | nil => exact Iff.rfl
  | cons c rest => simp [lowerFirst, CodePoint.lower_ne_nil]

end ProgramInterface
