import Mathlib.Data.List.TakeWhile
import ProgramInterface.Proofs.Number.Digits
import ProgramInterface.Yaml.Value

/-!
# Reading plain scalars as values

The words for null and for truth values, and the decimal digits of a number, have the tags of what they
stand for and are read as it.
-/

namespace ProgramInterface

namespace Yaml

open IntegerText (IsDecimal)

/-! ## Words -/

theorem implicit_tag_null : implicitTag "null" = .null := by
  decide +kernel

theorem implicit_tag_bool (b : Bool) : implicitTag (if b then "true" else "false") = .bool := by
  cases b <;> decide +kernel

theorem read_truth_bool (b : Bool) :
    readTruth (if b then "true" else "false") = .ok (.bool b) := by
  cases b <;> rfl

/-! ## Decimal digits -/

variable {digits : List Char}

theorem digit_of_decimal {c : Char} (h : IsDecimal c) : isDigitBelow 10 c = true := by
  have hlow : '0' ≤ c := h.1
  have hhigh : c.toNat < 0x3A := Nat.lt_succ_of_le h.2
  simp [isDigitBelow, hlow, hhigh]

theorem place_of_decimal {c : Char} (h : IsDecimal c) : isPlaceBelow 10 c = true := by
  rw [isPlaceBelow, digit_of_decimal h, Bool.or_true]

theorem drop_sign_decimal (h : ∀ c ∈ digits, IsDecimal c) : dropSign digits = digits := by
  unfold dropSign
  split
  · exact absurd rfl ((h '-' (List.mem_cons_self ..)).ne (.inl (by decide)))
  · exact absurd rfl ((h '+' (List.mem_cons_self ..)).ne (.inl (by decide)))
  · rfl

theorem ne_cons_of_decimal (h : ∀ c ∈ digits, IsDecimal c) {d : Char}
    (hd : d.toNat < 0x30 ∨ 0x39 < d.toNat) (rest : List Char) : digits ≠ d :: rest := by
  rintro rfl
  exact (h d (List.mem_cons_self ..)).ne hd rfl

/-- Digits alone are no number with a point. -/
theorem not_floating_decimal (h : ∀ c ∈ digits, IsDecimal c) : isFloating digits = false := by
  have hpoint : ∀ rest, digits = '.' :: rest → False := ne_cons_of_decimal h (.inl (by decide))
  have hpoints : ∀ c rest, digits = '.' :: c :: rest → False := fun _ _ => hpoint _
  have hwhole : digits.takeWhile (isPlaceBelow 10) = digits :=
    List.takeWhile_eq_self_iff.2 fun c hc => place_of_decimal (h c hc)
  have hnone : dropSixties false [] = none := by simp [dropSixties]
  simp [isFloating, drop_sign_decimal h, isPointed, hwhole, hnone]

theorem decimal_places (h : ∀ c ∈ digits, IsDecimal c) (hne : digits ≠ [])
    (hzero : digits.head? ≠ some '0') : isDecimalPlaces digits = true := by
  obtain ⟨c, digits, rfl⟩ := List.exists_cons_of_ne_nil hne
  obtain ⟨hc, hrest⟩ := List.forall_mem_cons.1 h
  have hzero : c ≠ '0' := fun hc => hzero (congrArg some hc)
  have hplaces : digits.all (isPlaceBelow 10) = true :=
    List.all_eq_true.2 fun d hd => place_of_decimal (hrest d hd)
  simp [isDecimalPlaces, hzero, digit_of_decimal hc, hplaces]

/-- The digits of a number are the form of an integer. -/
theorem integer_of_nat (n : Nat) : isInteger (Nat.toDigits 10 n) = true := by
  have h : ∀ c ∈ Nat.toDigits 10 n, IsDecimal c := fun _ => IntegerText.decimal_of_mem
  by_cases hn : n = 0
  · subst hn
    decide +kernel
  · have hzero : (Nat.toDigits 10 n).head? ≠ some '0' := by
      simpa [Text.ofNat, Text.ofChars] using Text.head_of_nat_ne_zero (Nat.pos_of_ne_zero hn)
    have hplaces := decimal_places h Nat.toDigits_ne_nil hzero
    have hno : ∀ rest, Nat.toDigits 10 n = '0' :: rest → False := fun rest heq =>
      hzero (by rw [heq]; rfl)
    rw [isInteger, drop_sign_decimal h]
    split
    · exact (hno _ ‹_›).elim
    · exact (hno _ ‹_›).elim
    · exact (hno _ ‹_›).elim
    · rw [hplaces, Bool.true_or]

/-- Digits have no line end behind them. -/
theorem drop_feed_decimal (h : ∀ c ∈ digits, IsDecimal c) : dropFeed digits = digits := by
  refine if_neg fun hfeed => ?_
  exact (h '\n' (List.mem_of_getLast? hfeed.2)).ne (.inl (by decide)) rfl

theorem implicit_tag_of_nat (n : Nat) : implicitTag (Text.ofNat n) = .int := by
  have h : ∀ c ∈ Nat.toDigits 10 n, IsDecimal c := fun _ => IntegerText.decimal_of_mem
  have hword : Nat.toDigits 10 n ∉ truthWords := by
    intro hmem
    obtain ⟨c, rest, hdigits⟩ := List.exists_cons_of_ne_nil
      (Nat.toDigits_ne_nil (n := n) (b := 10))
    have hletter : ∀ word ∈ truthWords, word.head?.any (0x39 < ·.toNat) = true := by decide
    have hhead := hletter _ hmem
    rw [hdigits] at hhead h
    have hbound := (h c (List.mem_cons_self ..)).2
    have habove : 0x39 < c.toNat := by simpa using hhead
    omega
  simp [implicitTag, Text.ofNat, drop_feed_decimal h, hword, not_floating_decimal h, integer_of_nat]

theorem ne_of_mem_of_nat {n : Nat} {d : Char} (hd : d.toNat < 0x30 ∨ 0x39 < d.toNat) :
    ∀ c ∈ Text.ofNat n, c ≠ .scalar d := by
  intro c hc
  obtain ⟨char, hchar, rfl⟩ := List.mem_map.1 hc
  exact fun heq => (IntegerText.decimal_of_mem hchar).ne hd (CodePoint.scalar.inj heq)

/-- The digits of a number are read as the number, unless they are too many. -/
theorem read_integer_of_nat {n : Nat} (h : IntegerText.fits (n : Int) = true) :
    readInteger (Text.ofNat n) = .ok (.int n) := by
  have hplaces : dropUnderscores (Text.ofNat n) = Text.ofNat n :=
    List.filter_eq_self.2 fun c hc => decide_eq_true (ne_of_mem_of_nat (.inr (by decide)) c hc)
  have hno : ∀ d rest, d.toNat < 0x30 ∨ 0x39 < d.toNat → Text.ofNat n = .scalar d :: rest → False :=
    fun d rest hd heq => ne_of_mem_of_nat hd _ (heq ▸ List.mem_cons_self ..) rfl
  have hsign : splitNumber (Text.ofNat n) = .ok (false, Text.ofNat n) := by
    unfold splitNumber
    split
    · exact (Text.of_nat_ne_nil n ‹_›).elim
    · exact (hno '-' _ (.inl (by decide)) ‹_›).elim
    · exact (hno '+' _ (.inl (by decide)) ‹_›).elim
    · rfl
  -- With a zero in front or with colons digits are read in other ways, but there are neither.
  have hmagnitude : readMagnitude (Text.ofNat n) = .ok (n : Int) := by
    by_cases hn : n = 0
    · subst hn
      rfl
    · have hzero : ∀ rest, Text.ofNat n = .scalar '0' :: rest → False := fun rest heq =>
        Text.head_of_nat_ne_zero (Nat.pos_of_ne_zero hn) (by rw [heq]; rfl)
      have hcolon : (Text.ofNat n).contains (.scalar ':') = false := by
        refine Bool.eq_false_iff.2 fun hcontains => ?_
        exact ne_of_mem_of_nat (.inr (by decide)) _ (List.contains_iff_mem.1 hcontains) rfl
      unfold readMagnitude
      split
      · exact (Text.of_nat_ne_nil n ‹_›).elim
      · exact (hzero _ ‹_›).elim
      · exact (hzero _ ‹_›).elim
      · exact (hzero _ ‹_›).elim
      · exact (hzero _ ‹_›).elim
      · rw [hcolon, if_neg Bool.false_ne_true, readIn, IntegerText.read_of_nat h]
        rfl
  rw [readInteger, hplaces, hsign]
  show (readMagnitude (Text.ofNat n)).bind _ = _
  rw [hmagnitude]
  rfl

end Yaml

end ProgramInterface
