import ProgramInterface.Number.IntegerText

/-!
# Digits of written numbers

How long the decimal digits of a number are and what they begin with, which digits a number has in
hexadecimal, and that decimal digits are read as the number they were written for.
-/

namespace ProgramInterface

namespace Text

/-! ## Decimal digits -/

theorem of_nat_ne_nil (n : Nat) : ofNat n ≠ [] := by
  simp [ofNat, ofChars, Nat.toDigits_ne_nil]

theorem length_of_nat_le_iff {n k : Nat} (hk : 0 < k) :
    (ofNat n).length ≤ k ↔ n < Nat.pow 10 k := by
  rw [ofNat, ofChars, List.length_map]
  exact Nat.length_toDigits_le_iff (by decide) hk

/-- Only zero itself begins with a zero. -/
theorem head_of_nat_ne_zero {n : Nat} (h : 0 < n) : (ofNat n).head? ≠ some (.scalar '0') := by
  have hhead : (Nat.toDigits 10 n).head? ≠ some '0' := by
    -- The first digit of a number above nine is that of a tenth of it.
    induction n using Nat.strongRecOn with
    | ind n ih =>
        rw [Nat.toDigits_eq_if (by decide)]
        split
        · simp
          omega
        · obtain ⟨c, digits, hdigits⟩ :=
            List.exists_cons_of_ne_nil (Nat.toDigits_ne_nil (n := n / 10) (b := 10))
          have hfirst := ih (n / 10) (by omega) (by omega)
          rw [hdigits] at hfirst ⊢
          exact hfirst
  simpa [ofNat, ofChars] using hhead

/-! ## Hexadecimal digits -/

/-- The number that a sequence of digits denotes in base 16. -/
def ofHexDigits (digits : List Nat) : Nat :=
  digits.foldl (fun n d => n * 16 + d) 0

/-- The hexadecimal digits of a number denote it. -/
theorem to_digits_hex (n : Nat) :
    ∃ digits : List Nat, (∀ d ∈ digits, d < 16) ∧ Nat.toDigits 16 n = digits.map Nat.digitChar ∧
      ofHexDigits digits = n := by
  induction n using Nat.strongRecOn with
  | ind n ih =>
      rw [Nat.toDigits_eq_if (by decide)]
      split
      · exact ⟨[n], by simpa, rfl, by simp [ofHexDigits]⟩
      · obtain ⟨digits, hsmall, hdigits, hvalue⟩ := ih (n / 16) (by omega)
        refine ⟨digits ++ [n % 16], ?_, by simp [hdigits], ?_⟩
        · intro d hd
          rcases List.mem_append.1 hd with hfront | hlast
          · exact hsmall d hfront
          · have := List.mem_singleton.1 hlast
            omega
        · rw [ofHexDigits, List.foldl_append, ← ofHexDigits, hvalue]
          simp only [List.foldl_cons, List.foldl_nil]
          omega

/-- A number that has at most `k` hexadecimal digits is filled to exactly that width. -/
theorem hexadecimal_of_lt {n k : Nat} (hk : 0 < k) (h : n < Nat.pow 16 k) :
    ∃ digits : List Nat, digits.length = k ∧ (∀ d ∈ digits, d < 16) ∧
      hexadecimal k n = digits.map Nat.digitChar ∧ ofHexDigits digits = n := by
  obtain ⟨digits, hsmall, hdigits, hvalue⟩ := to_digits_hex n
  have hlength : digits.length ≤ k := by
    have := (Nat.length_toDigits_le_iff (b := 16) (by decide) hk).2 h
    rwa [hdigits, List.length_map] at this
  refine ⟨List.replicate (k - digits.length) 0 ++ digits, ?_, ?_, ?_, ?_⟩
  · rw [List.length_append, List.length_replicate]
    omega
  · intro d hd
    rcases List.mem_append.1 hd with hzero | hdigit
    · rw [List.eq_of_mem_replicate hzero]
      decide
    · exact hsmall d hdigit
  · rw [hexadecimal, hdigits, List.length_map, List.map_append, List.map_replicate]
    rfl
  · rw [ofHexDigits, List.foldl_append]
    have hzeros : ∀ k, (List.replicate k 0).foldl (fun n d => n * 16 + d) 0 = 0 := by
      intro k
      induction k with
      | zero => rfl
      | succ k ih => simpa [List.replicate_succ] using ih
    rw [hzeros, ← ofHexDigits, hvalue]

end Text

/-! ## Code points by number -/

theorem CodePoint.of_nat_to_nat (char : Char) : ofNat? char.toNat = some (.scalar char) := by
  have hvalid : char.toNat.isValidChar := char.valid
  rw [ofNat?, dif_pos hvalid]
  rfl

/-- Every code point is the one with its number. -/
theorem CodePoint.of_nat_val (c : CodePoint) : ofNat? c.val = some c := by
  cases c with
  | scalar char => exact of_nat_to_nat char
  | surrogate index =>
      have hindex := index.isLt
      have hinvalid : ¬ (0xD800 + index.val).isValidChar := by
        unfold Nat.isValidChar
        omega
      have hrange : 0xD800 ≤ 0xD800 + index.val ∧ 0xD800 + index.val < 0xE000 := by omega
      rw [val, ofNat?, dif_neg hinvalid, dif_pos hrange]
      simp

theorem CodePoint.val_lt (c : CodePoint) : c.val < 0x110000 := by
  cases c with
  | scalar char =>
      have hvalid : char.toNat.isValidChar := char.valid
      unfold Nat.isValidChar at hvalid
      show char.toNat < 0x110000
      omega
  | surrogate index =>
      have hindex := index.isLt
      show 0xD800 + index.val < 0x110000
      omega

theorem CodePoint.eq_scalar_of_val {c : CodePoint} {n : Nat} (h : c.val = n) (hn : n < 0xD800) :
    c = .scalar (Char.ofNat n) := by
  cases c with
  | scalar char =>
      rw [← h]
      exact congrArg CodePoint.scalar (Char.ofNat_toNat char).symm
  | surrogate index =>
      have hval : 0xD800 + index.val = n := h
      omega

/-! ## Integers that can be written -/

theorem IntegerText.fits_iff {n : Int} : fits n = true ↔ n.natAbs < decimalBound := by
  rw [fits, decide_eq_true_iff]

theorem IntegerText.fits_iff_length {n : Int} :
    fits n = true ↔ (Text.ofNat n.natAbs).length ≤ decimalLimit := by
  rw [fits_iff]
  unfold decimalBound
  rw [Text.length_of_nat_le_iff (by decide)]

/-- What goes on with the result of a reading gives something only if that reading does. -/
theorem exists_of_bind_eq_ok {ε α β : Type} {first : Except ε α} {next : α → Except ε β} {b : β}
    (h : first >>= next = .ok b) : ∃ a, first = .ok a ∧ next a = .ok b := by
  cases first with
  | error fault => cases h
  | ok a => exact ⟨a, rfl, h⟩

/-! ## Reading decimal digits -/

namespace IntegerText

/-- Whether a character is a decimal digit. -/
def IsDecimal (c : Char) : Prop :=
  0x30 ≤ c.toNat ∧ c.toNat ≤ 0x39

theorem decimal_of_mem {n : Nat} {c : Char} (h : c ∈ Nat.toDigits 10 n) : IsDecimal c := by
  have hdigit := Nat.isDigit_of_mem_toDigits (by decide) (by decide) h
  simpa [IsDecimal, Char.isDigit, UInt32.le_iff_toNat_le] using hdigit

theorem IsDecimal.ne {c d : Char} (h : IsDecimal c) (hd : d.toNat < 0x30 ∨ 0x39 < d.toNat) :
    c ≠ d := by
  rintro rfl
  have := h.1
  have := h.2
  omega

theorem IsDecimal.value {c : Char} (h : IsDecimal c) :
    digitIn? 10 c = some (c.toNat - 0x30) := by
  have hlow : '0' ≤ c := h.1
  have hhigh : c ≤ '9' := h.2
  have hsmall : c.toNat - 0x30 < 10 := by
    have := h.2
    omega
  simp [digitIn?, digitValue?, hlow, hhigh, Option.filter, hsmall]

/-- The digits of all bases lie in the range from the first figure to the last letter. -/
theorem digit_range {base d : Nat} {c : Char} (h : digitIn? base c = some d) :
    0x30 ≤ c.toNat ∧ c.toNat ≤ 0x7A := by
  obtain ⟨hvalue, -⟩ := Option.filter_eq_some_iff.1 h
  simp only [digitValue?, Char.le_def, UInt32.le_iff_toNat_le] at hvalue
  show 0x30 ≤ c.val.toNat ∧ c.val.toNat ≤ 0x7A
  have hbounds : ('0'.val.toNat = 0x30 ∧ '9'.val.toNat = 0x39) ∧
      ('a'.val.toNat = 0x61 ∧ 'z'.val.toNat = 0x7A) ∧ 'A'.val.toNat = 0x41 ∧ 'Z'.val.toNat = 0x5A := by
    decide
  split at hvalue
  · omega
  · split at hvalue
    · omega
    · split at hvalue
      · omega
      · cases hvalue

theorem digit_not_gap {base d : Nat} {c : Char} (h : digitIn? base c = some d) :
    isGap c = false := by
  refine Bool.eq_false_iff.2 fun hgap => ?_
  have hlow := (digit_range h).1
  simp only [isGap, Bool.or_eq_true, Bool.and_eq_true, decide_eq_true_eq] at hgap
  obtain rfl | ⟨-, hlast⟩ := hgap
  · exact absurd hlow (by decide)
  · have hlast : c.toNat ≤ 0x0D := hlast
    omega

/-- The digits of a run are taken up to what is neither a digit of the base nor an underscore. -/
theorem digit_run_append {base : Nat} {value : Char → Nat} {chars rest : List Char}
    (h : ∀ c ∈ chars, digitIn? base c = some (value c))
    (hrest : ∀ c ∈ rest.head?, digitIn? base c = none ∧ c ≠ '_') (afterDigit : Bool)
    (hdigit : chars = [] → afterDigit = true) (done : List Nat) :
    digitRun base afterDigit done (chars ++ rest) =
      .ok (done.reverse ++ chars.map value, rest) := by
  induction chars generalizing afterDigit done with
  | nil =>
      cases rest with
      | nil => simp [digitRun, hdigit rfl]
      | cons c rest =>
          obtain ⟨hnone, hne⟩ := hrest c rfl
          simp [digitRun, hnone, hne, hdigit rfl]
  | cons c chars ih =>
      obtain ⟨hc, hchars⟩ := List.forall_mem_cons.1 h
      rw [List.cons_append, digitRun, hc]
      simp only [ih hchars true (fun _ => rfl), List.reverse_cons, List.map_cons, List.append_assoc,
        List.singleton_append]

theorem base_letter_not_digit {base : Nat} {c : Char} (h : baseLetter? base = some c.toLower) :
    digitIn? base c = none := by
  have hascii : ∀ base ∈ [2, 8, 16], ∀ n < 0x7B,
      baseLetter? base = some (Char.ofNat n).toLower → digitIn? base (Char.ofNat n) = none := by
    decide
  have hbase : base ∈ [2, 8, 16] := by
    unfold baseLetter? at h
    split at h <;> simp_all
  cases hdigit : digitIn? base c with
  | none => rfl
  | some d =>
      have hnone := hascii base hbase c.toNat (Nat.lt_succ_of_le (digit_range hdigit).2)
      rw [Char.ofNat_toNat] at hnone
      exact absurd (hnone h) (by simp [hdigit])

/-- Digits do not begin with the mark of their base. -/
theorem drop_mark_digits {base : Nat} {value : Char → Nat} {chars : List Char}
    (h : ∀ c ∈ chars, digitIn? base c = some (value c)) : dropMark base chars = chars := by
  unfold dropMark
  split
  · rename_i letter rest
    refine if_neg fun hletter => ?_
    have hdigit := h letter (by simp)
    rw [base_letter_not_digit hletter] at hdigit
    cases hdigit
  · rfl

/-- Digits are read as the number they denote, unless something follows them or they are too many
decimal ones. -/
theorem read_chars_append {base : Nat} {value : Char → Nat} {chars rest : List Char}
    (h : ∀ c ∈ chars, digitIn? base c = some (value c)) (hne : chars ≠ [])
    (hmark : dropMark base (chars ++ rest) = chars ++ rest)
    (hrest : ∀ c ∈ rest.head?, digitIn? base c = none ∧ c ≠ '_') :
    readChars base (chars ++ rest) =
      if base = 10 ∧ decimalLimit < chars.length then .error (.tooLong chars.length)
      else if rest.all isGap then .ok (ofDigits base (chars.map value) : Nat)
      else .error .malformed := by
  have hgap : (chars ++ rest).dropWhile isGap = chars ++ rest := by
    obtain ⟨c, chars, rfl⟩ := List.exists_cons_of_ne_nil hne
    simp [digit_not_gap (h c (List.mem_cons_self ..))]
  have hsign : splitSign (chars ++ rest) = (false, chars ++ rest) := by
    obtain ⟨c, chars, rfl⟩ := List.exists_cons_of_ne_nil hne
    have hlow := (digit_range (h c (List.mem_cons_self ..))).1
    have hplus : c ≠ '+' := fun heq => absurd (heq ▸ hlow) (by decide)
    have hminus : c ≠ '-' := fun heq => absurd (heq ▸ hlow) (by decide)
    simp [splitSign, hplus, hminus]
  simp only [readChars, hgap, hsign, hmark, digit_run_append h hrest false (absurd · hne) [],
    List.reverse_nil, List.nil_append, bind, Except.bind, List.length_map]
  split
  · rfl
  · split <;> rfl

theorem read_chars_digits {base : Nat} {value : Char → Nat} {chars : List Char}
    (h : ∀ c ∈ chars, digitIn? base c = some (value c)) (hne : chars ≠ []) :
    readChars base chars =
      if base = 10 ∧ decimalLimit < chars.length then .error (.tooLong chars.length)
      else .ok (ofDigits base (chars.map value) : Nat) := by
  have hmark : dropMark base (chars ++ []) = chars ++ [] := by
    rw [List.append_nil, drop_mark_digits h]
  have hread := read_chars_append h hne hmark nofun
  rwa [List.append_nil] at hread

/-- Decimal digits are read as the number they denote, unless they are too many. -/
theorem read_chars_decimal {chars : List Char} (h : ∀ c ∈ chars, IsDecimal c) (hne : chars ≠ [])
    (hlength : chars.length ≤ decimalLimit) :
    readChars 10 chars = .ok (ofDigits 10 (chars.map fun c => c.toNat - 0x30) : Nat) := by
  rw [read_chars_digits (fun c hc => (h c hc).value) hne]
  exact if_neg fun hlong => Nat.not_lt.2 hlength hlong.2

/-- Plain characters are read as what they are. -/
theorem map_plain_of_chars {chars : List Char} (h : ∀ c ∈ chars, c.toNat < 0x7F) :
    (Text.ofChars chars).map plain = chars := by
  rw [Text.ofChars, List.map_map]
  refine (List.map_congr_left fun c hc => ?_).trans (List.map_id _)
  simp [plain, h c hc]

/-- The decimal digits of a number are read as the number. -/
theorem read_of_nat {n : Nat} (h : fits (n : Int) = true) : read 10 (Text.ofNat n) = .ok (n : Int) := by
  have hplain : (Text.ofNat n).map plain = Nat.toDigits 10 n :=
    map_plain_of_chars fun c hc => Nat.lt_of_le_of_lt (decimal_of_mem hc).2 (by decide)
  have hlength : (Nat.toDigits 10 n).length ≤ decimalLimit := by
    simpa [Text.ofNat, Text.ofChars] using fits_iff_length.1 h
  have hvalue : ofDigits 10 ((Nat.toDigits 10 n).map fun c => c.toNat - 0x30) = n := by
    have hdenoted := Nat.ofDigitChars_ten_toDigits (n := n)
    rw [Nat.ofDigitChars_eq_foldl] at hdenoted
    rw [ofDigits, List.foldl_map]
    simpa [Nat.mul_comm] using hdenoted
  rw [read, hplain, read_chars_decimal (fun _ => decimal_of_mem) Nat.toDigits_ne_nil hlength, hvalue]

end IntegerText

end ProgramInterface
