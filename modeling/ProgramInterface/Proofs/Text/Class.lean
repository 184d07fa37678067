import Mathlib.Data.List.Chain
import Mathlib.Data.List.TakeWhile
import ProgramInterface.Text.Class

/-!
# The characters of names

Ranges of one rising list that lie in ranges of another hold fewer numbers (`exists_of_covers`), so
what may begin a name may also go on with one (`name_next_of_start`).
-/

namespace ProgramInterface

/-- Whether every range of a rising list lies in one of another. -/
def covers : List (Nat × Nat) → List (Nat × Nat) → Bool
  | [], narrow => narrow.isEmpty
  | wide :: rest, narrow =>
    covers rest (narrow.dropWhile fun range => wide.1 ≤ range.1 && range.2 ≤ wide.2)

theorem exists_of_in_ranges {ranges : List (Nat × Nat)} {n : Nat} (h : inRanges ranges n = true) :
    ∃ range ∈ ranges, range.1 ≤ n ∧ n ≤ range.2 := by
  induction ranges with
  | nil => cases h
  | cons range rest ih =>
      rw [inRanges] at h
      split at h
      · cases h
      · rename_i hfirst
        rcases Bool.or_eq_true .. ▸ h with hlast | hrest
        · exact ⟨range, List.mem_cons_self .., Nat.le_of_not_lt hfirst, of_decide_eq_true hlast⟩
        · obtain ⟨found, hfound, hbounds⟩ := ih hrest
          exact ⟨found, List.mem_cons_of_mem _ hfound, hbounds⟩

theorem in_ranges_of_mem {ranges : List (Nat × Nat)} (hrising : ranges.Pairwise fun a b => a.1 ≤ b.1)
    {range : Nat × Nat} (hrange : range ∈ ranges) {n : Nat} (hfirst : range.1 ≤ n)
    (hlast : n ≤ range.2) : inRanges ranges n = true := by
  induction ranges with
  | nil => cases hrange
  | cons first rest ih =>
      obtain ⟨hle, hrest⟩ := List.pairwise_cons.1 hrising
      rw [inRanges]
      rcases List.mem_cons.1 hrange with rfl | hmem
      · rw [if_neg (Nat.not_lt.2 hfirst), decide_eq_true hlast]
        rfl
      · rw [if_neg (Nat.not_lt.2 (Nat.le_trans (hle range hmem) hfirst)), ih hrest hmem, Bool.or_true]

theorem exists_of_covers {wide narrow : List (Nat × Nat)} (h : covers wide narrow = true)
    {range : Nat × Nat} (hrange : range ∈ narrow) :
    ∃ outer ∈ wide, outer.1 ≤ range.1 ∧ range.2 ≤ outer.2 := by
  induction wide generalizing narrow with
  | nil =>
      rw [covers, List.isEmpty_iff] at h
      exact absurd (h ▸ hrange) List.not_mem_nil
  | cons outer rest ih =>
      rw [← List.takeWhile_append_dropWhile (l := narrow)
        (p := fun range => outer.1 ≤ range.1 && range.2 ≤ outer.2), List.mem_append] at hrange
      rcases hrange with htaken | hleft
      · have hbounds := List.mem_takeWhile_imp htaken
        rw [Bool.and_eq_true, decide_eq_true_iff, decide_eq_true_iff] at hbounds
        exact ⟨outer, List.mem_cons_self .., hbounds⟩
      · obtain ⟨found, hfound, hbounds⟩ := ih h hleft
        exact ⟨found, List.mem_cons_of_mem _ hfound, hbounds⟩

/-- What may begin a name may go on with one. -/
theorem name_next_of_start {c : Char} (h : isNameStart c = true) : isNameNext c = true := by
  have hrising : IdentifierTable.next.Pairwise fun a b => a.1 ≤ b.1 := by
    rw [← List.isChain_iff_pairwise]
    decide +kernel
  have hcovers : covers IdentifierTable.next IdentifierTable.start = true := by decide +kernel
  by_cases hlow : c.toNat < 0x80
  · have hascii : ∀ n < 0x80, isNameStart (Char.ofNat n) = true →
        isNameNext (Char.ofNat n) = true := by decide
    exact Char.ofNat_toNat c ▸ hascii c.toNat hlow ((Char.ofNat_toNat c).symm ▸ h)
  · rw [isNameStart, if_neg hlow] at h
    rw [isNameNext, if_neg hlow]
    obtain ⟨range, hrange, hfirst, hlast⟩ := exists_of_in_ranges h
    obtain ⟨outer, houter, hbegin, hend⟩ := exists_of_covers hcovers hrange
    exact in_ranges_of_mem hrising houter (Nat.le_trans hbegin hfirst) (Nat.le_trans hlast hend)

end ProgramInterface
