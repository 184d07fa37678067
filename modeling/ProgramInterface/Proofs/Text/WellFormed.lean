import Mathlib.Logic.Function.Defs
import ProgramInterface.Proofs.Text.Ends

/-!
# Texts without surrogates

Every string is a text without surrogates, and so is what is made of such texts by joining and
cutting them. Putting a first letter in lower case keeps a text free of surrogates as well
(`Text.WellFormed.lower_first`), because no entry of the case tables leads to one.
-/

namespace ProgramInterface

@[simp]
theorem CodePoint.not_surrogate_scalar (char : Char) : (scalar char).isSurrogate = false :=
  rfl

theorem Text.of_string_injective : Function.Injective ofString := by
  intro s t h
  have hs := toString?_ofString s
  rw [h, toString?_ofString] at hs
  exact (Option.some.inj hs).symm

namespace Text

theorem length_of_string (s : String) : (ofString s).length = s.length := by
  rw [ofString, ofChars, List.length_map, String.length_toList]

@[simp]
theorem well_formed_nil : WellFormed [] :=
  fun _ h => nomatch h

@[simp]
theorem well_formed_cons {c : CodePoint} {t : Text} :
    WellFormed (c :: t) ↔ c.isSurrogate = false ∧ t.WellFormed :=
  List.forall_mem_cons

@[simp]
theorem well_formed_append {s t : Text} : WellFormed (s ++ t) ↔ s.WellFormed ∧ t.WellFormed :=
  List.forall_mem_append

@[simp]
theorem well_formed_of_chars (chars : List Char) : (ofChars chars).WellFormed := by
  intro c hc
  obtain ⟨char, _, rfl⟩ := List.mem_map.1 hc
  rfl

@[simp]
theorem well_formed_of_string (s : String) : (ofString s).WellFormed :=
  well_formed_of_chars s.toList

@[simp]
theorem well_formed_of_nat (n : Nat) : (ofNat n).WellFormed :=
  well_formed_of_chars _

@[simp]
theorem well_formed_of_int : (n : Int) → (ofInt n).WellFormed
  | .ofNat n => well_formed_of_nat n
  | .negSucc n => well_formed_cons.2 ⟨rfl, well_formed_of_nat (n + 1)⟩

@[simp]
theorem well_formed_string_append {s : String} {t : Text} :
    WellFormed (s ++ t) ↔ t.WellFormed :=
  well_formed_append.trans (and_iff_right (well_formed_of_string s))

@[simp]
theorem well_formed_append_string {t : Text} {s : String} :
    WellFormed (t ++ s) ↔ t.WellFormed :=
  well_formed_append.trans (and_iff_left (well_formed_of_string s))

theorem WellFormed.drop_end {t ending kept : Text} (h : t.WellFormed)
    (hkept : dropEnd? ending t = some kept) : kept.WellFormed := by
  rw [drop_end_eq_some.1 hkept] at h
  exact (well_formed_append.1 h).1

end Text

/-! ## Case -/

namespace CodePoint

/-- Whether a number is that of a surrogate. -/
def isSurrogateNumber (n : Nat) : Bool :=
  0xD800 ≤ n && n < 0xE000

theorem not_surrogate_of_number {n : Nat} {c : CodePoint} (hn : isSurrogateNumber n = false)
    (h : ofNat? n = some c) : c.isSurrogate = false := by
  unfold ofNat? at h
  by_cases hvalid : n.isValidChar
  · rw [dif_pos hvalid] at h
    cases h
    rfl
  · rw [dif_neg hvalid] at h
    by_cases hrange : 0xD800 ≤ n ∧ n < 0xE000
    · simp [isSurrogateNumber] at hn
      omega
    · rw [dif_neg hrange] at h
      cases h

end CodePoint

namespace CaseTable

/-- Whether an entry of a table leads to no surrogate. -/
def avoidsSurrogates : Nat × Nat × Nat × Int → Bool
  | (first, last, _, shift) =>
    ((last : Int) + shift < 0xD800 || 0xE000 ≤ (first : Int) + shift)

theorem shift_avoids {table : List (Nat × Nat × Nat × Int)} (h : table.all avoidsSurrogates = true)
    {n : Nat} {shift : Int} (hshift : shift? table n = some shift) :
    CodePoint.isSurrogateNumber (n + shift).toNat = false := by
  obtain ⟨first, last, step, hentry, hfirst, hlast⟩ := exists_entry_of_shift hshift
  have havoids := List.all_eq_true.1 h _ hentry
  simp [avoidsSurrogates] at havoids
  simp [CodePoint.isSurrogateNumber]
  omega

theorem lower_avoids : lower.all avoidsSurrogates = true := by
  decide +kernel

theorem lower_special_avoids :
    lowerSpecial.all (fun entry => entry.2.all (!CodePoint.isSurrogateNumber ·)) = true := by
  decide +kernel

end CaseTable

/-- The lower-case form of a character holds no surrogate. -/
theorem CodePoint.well_formed_lower {c : CodePoint} (h : c.isSurrogate = false) :
    Text.WellFormed c.lower := by
  intro point hpoint
  unfold lower mapCase at hpoint
  split at hpoint
  · rename_i targets htargets
    obtain ⟨n, hn, hnumber⟩ := List.mem_filterMap.1 hpoint
    have hentry : (c.val, targets) ∈ CaseTable.lowerSpecial := by
      obtain ⟨front, back, heq, _⟩ := List.lookup_eq_some_iff.1 htargets
      simp [heq]
    have havoids := List.all_eq_true.1 CaseTable.lower_special_avoids _ hentry
    exact not_surrogate_of_number (by simpa using List.all_eq_true.1 havoids n hn) hnumber
  · split at hpoint
    · rename_i shift hshift
      exact not_surrogate_of_number (CaseTable.shift_avoids CaseTable.lower_avoids hshift)
        (Option.mem_toList.1 hpoint)
    · rwa [List.mem_singleton.1 hpoint]

namespace Text

/-- Putting the first letter of a text in lower case brings no surrogate into it. -/
theorem WellFormed.lower_first {t : Text} (h : t.WellFormed) : t.lowerFirst.WellFormed := by
  cases t with
  | nil => exact h
  | cons c rest =>
      obtain ⟨hc, hrest⟩ := well_formed_cons.1 h
      exact well_formed_append.2 ⟨CodePoint.well_formed_lower hc, hrest⟩

end Text

end ProgramInterface
