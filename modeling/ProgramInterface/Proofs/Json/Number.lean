import ProgramInterface.Json.Reader
import ProgramInterface.Json.Writer
import ProgramInterface.Proofs.Number.Digits

/-!
# Reading written numbers

An integer that was written in decimal digits is read back as itself (`read_scalar_of_int`), in
either dialect and in front of any text that does not go on with a number, unless it is too long.
-/

namespace ProgramInterface

namespace Json

/-! ## Decimal digits -/

theorem is_digit_of_mem {n : Nat} {c : CodePoint} (h : c ∈ Text.ofNat n) : isDigit c = true := by
  obtain ⟨char, hchar, rfl⟩ := List.mem_map.1 h
  have hdigit := Nat.isDigit_of_mem_toDigits (by decide) (by decide) hchar
  show (decide (0x30 ≤ char.toNat) && decide (char.toNat ≤ 0x39)) = true
  simpa [Char.isDigit, UInt32.le_iff_toNat_le] using hdigit

/-- The digits of a number denote it. -/
theorem digits_value_of_nat (n : Nat) : digitsValue (Text.ofNat n) = n := by
  have hvalue := Nat.ofDigitChars_ten_toDigits (n := n)
  rw [Nat.ofDigitChars_eq_foldl] at hvalue
  rw [digitsValue, Text.ofNat, Text.ofChars, List.foldl_map]
  simpa [CodePoint.val, Nat.mul_comm] using hvalue

/-! ## What follows a number -/

/-- Whether a text does not go on with a number that stands in front of it. -/
def EndsNumber (rest : Text) : Prop :=
  ∀ c ∈ rest.head?, isDigit c = false ∧ c ≠ .scalar '.' ∧ c ≠ .scalar 'e' ∧ c ≠ .scalar 'E'

theorem ends_number_nil : EndsNumber [] :=
  nofun

theorem ends_number_cons {c : CodePoint} {rest : Text} (hdigit : isDigit c = false)
    (hpoint : c ≠ .scalar '.') (hlow : c ≠ .scalar 'e') (hhigh : c ≠ .scalar 'E') :
    EndsNumber (c :: rest) := by
  rintro _ ⟨⟩
  exact ⟨hdigit, hpoint, hlow, hhigh⟩

theorem EndsNumber.take_digits {n : Nat} {rest : Text} (h : EndsNumber rest) :
    (Text.ofNat n ++ rest).takeWhile isDigit = Text.ofNat n := by
  rw [List.takeWhile_append_of_pos fun c hc => is_digit_of_mem hc]
  cases rest with
  | nil => simp
  | cons c rest => simp [(h c rfl).1]

theorem EndsNumber.drop_digits {n : Nat} {rest : Text} (h : EndsNumber rest) :
    (Text.ofNat n ++ rest).dropWhile isDigit = rest := by
  rw [List.dropWhile_append_of_pos fun c hc => is_digit_of_mem hc]
  cases rest with
  | nil => simp
  | cons c rest => simp [(h c rfl).1]

theorem EndsNumber.read_fraction {dialect : Dialect} {start rest : Text} (h : EndsNumber rest) :
    readFraction dialect start rest = .ok (none, rest) := by
  unfold readFraction
  split
  · exact absurd rfl (h _ rfl).2.1
  · rfl

theorem EndsNumber.read_exponent {dialect : Dialect} {start rest : Text} (h : EndsNumber rest) :
    readExponent dialect start rest = .ok (none, rest) := by
  unfold readExponent
  split
  · rename_i c rest
    rw [if_neg (not_or.2 (h c rfl).2.2)]
  · rfl

/-! ## Numbers -/

variable {dialect : Dialect} {start rest : Text}

theorem EndsNumber.read_whole (n : Nat) (h : EndsNumber rest) :
    readWhole dialect start (Text.ofNat n ++ rest) = .ok (Text.ofNat n, rest) := by
  rcases Nat.eq_zero_or_pos n with rfl | hpos
  · have hzero : Text.ofNat 0 = [.scalar '0'] := by decide
    rw [hzero, List.singleton_append]
    cases rest with
    | nil => cases dialect <;> rfl
    | cons c rest => cases dialect <;> simp [readWhole, (h c rfl).1]
  · have hhead := Text.head_of_nat_ne_zero hpos
    obtain ⟨c, digits, hn⟩ := List.exists_cons_of_ne_nil (Text.of_nat_ne_nil n)
    have hdigit : isDigit c = true := is_digit_of_mem (n := n) (by simp [hn])
    have hzero : c ≠ .scalar '0' := by
      rintro rfl
      simp [hn] at hhead
    have htake := h.take_digits (n := n)
    have hdrop := h.drop_digits (n := n)
    rw [hn, List.cons_append] at htake hdrop ⊢
    unfold readWhole
    split
    · simp_all
    · rw [readDigits, if_pos hdigit, htake, hdrop]

theorem EndsNumber.read_number (start : Text) (negative : Bool) {n : Nat} (h : EndsNumber rest)
    (hshort : (Text.ofNat n).length ≤ IntegerText.decimalLimit) :
    readNumber dialect negative start (Text.ofNat n ++ rest) =
      .ok (.int (if negative then -n else n), rest) := by
  unfold readNumber
  simp only [h.read_whole n, bind, Except.bind, h.read_fraction, h.read_exponent,
    if_neg (Nat.not_lt.2 hshort), digits_value_of_nat, pure, Except.pure]

/-- A scalar that begins with a digit is a number. -/
theorem read_scalar_of_digit {c : CodePoint} {t : Text} (h : isDigit c = true) :
    readScalar dialect (c :: t) = readNumber dialect false (c :: t) (c :: t) := by
  unfold readScalar
  split <;> rename_i heq <;> cases heq <;> first | cases h | exact if_pos h

theorem read_scalar_of_minus {c : CodePoint} {t : Text} (h : isDigit c = true) :
    readScalar dialect (.scalar '-' :: c :: t) =
      readNumber dialect true (.scalar '-' :: c :: t) (c :: t) := by
  unfold readScalar
  split <;> rename_i heq <;> cases heq <;> first | cases h | rfl | simp_all

/-- An integer that was written is read back. -/
theorem read_scalar_of_int {n : Int} (h : EndsNumber rest) (hn : IntegerText.fits n = true) :
    readScalar dialect (Text.ofInt n ++ rest) = .ok (.int n, rest) := by
  have hshort := IntegerText.fits_iff_length.1 hn
  cases n with
  | ofNat n =>
      obtain ⟨c, digits, hc⟩ := List.exists_cons_of_ne_nil (Text.of_nat_ne_nil n)
      have hdigit : isDigit c = true := is_digit_of_mem (n := n) (by simp [hc])
      have hread : readNumber dialect _ _ _ = _ :=
        h.read_number (Text.ofNat n ++ rest) false (n := n) hshort
      show readScalar dialect (Text.ofNat n ++ rest) = _
      rw [hc, List.cons_append] at hread ⊢
      rw [read_scalar_of_digit hdigit, hread]
      rfl
  | negSucc n =>
      obtain ⟨c, digits, hc⟩ := List.exists_cons_of_ne_nil (Text.of_nat_ne_nil (n + 1))
      have hdigit : isDigit c = true := is_digit_of_mem (n := n + 1) (by simp [hc])
      have hread : readNumber dialect _ _ _ = _ :=
        h.read_number (.scalar '-' :: Text.ofNat (n + 1) ++ rest) true (n := n + 1) hshort
      show readScalar dialect (.scalar '-' :: Text.ofNat (n + 1) ++ rest) = _
      rw [List.cons_append] at hread ⊢
      rw [hc, List.cons_append] at hread ⊢
      rw [read_scalar_of_minus hdigit, hread]
      rfl

end Json

end ProgramInterface
