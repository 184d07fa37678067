import ProgramInterface.Json.Reader
import ProgramInterface.Json.Writer
import ProgramInterface.Proofs.Number.Digits

/-!
# Reading written strings

A text that was written as a string is read back as itself in either dialect (`read_string_write`),
whether code points beyond ASCII were escaped or not. Where they were, a surrogate standing alone
would come back as something else or not at all, so then the text must not hold any.
-/

namespace ProgramInterface

namespace Json

variable {dialect : Dialect} {opening rest : Text}

/-! ## Escapes by number -/

/-- The text of some hexadecimal digits. -/
def hexText (digits : List Nat) : Text :=
  digits.map fun d => .scalar (Nat.digitChar d)

theorem hex_digit_of_digit_char : ∀ d < 16, hexDigit? (.scalar (Nat.digitChar d)) = some d := by
  decide

theorem byte_width_of_digit_char : ∀ d < 16, byteWidth (.scalar (Nat.digitChar d)) = 1 := by
  decide

theorem width_hex_text {digits : List Nat} (h : ∀ d ∈ digits, d < 16) :
    byteLength (hexText digits) = digits.length := by
  induction digits with
  | nil => rfl
  | cons d rest ih =>
      obtain ⟨hd, hrest⟩ := List.forall_mem_cons.1 h
      rw [hexText, List.map_cons, byteLength, byte_width_of_digit_char d hd]
      rw [← hexText, ih hrest, List.length_cons, Nat.add_comm]

theorem filter_map_hex_text {digits : List Nat} (h : ∀ d ∈ digits, d < 16) :
    (hexText digits).filterMap hexDigit? = digits := by
  induction digits with
  | nil => rfl
  | cons d rest ih =>
      obtain ⟨hd, hrest⟩ := List.forall_mem_cons.1 h
      rw [hexText, List.map_cons, List.filterMap_cons_some (hex_digit_of_digit_char d hd)]
      exact congrArg (d :: ·) (ih hrest)

theorem find_idx_hex_text {digits : List Nat} (h : ∀ d ∈ digits, d < 16) :
    (hexText digits).findIdx? (fun c => (hexDigit? c).isNone) = none := by
  refine List.findIdx?_eq_none_iff.2 fun c hc => ?_
  obtain ⟨d, hd, rfl⟩ := List.mem_map.1 hc
  rw [hex_digit_of_digit_char d (h d hd)]
  rfl

/-- The digits of an escape are read in front of anything. -/
theorem read_unit_hexadecimal {n : Nat} (hn : n < 0x10000) (start : Text) (hrest : rest ≠ []) :
    readUnit dialect start (Text.ofChars (Text.hexadecimal 4 n) ++ rest) = .ok (n, rest) := by
  obtain ⟨digits, hlength, hsmall, hdigits, hvalue⟩ := Text.hexadecimal_of_lt (k := 4) (by decide) hn
  have htext : Text.ofChars (Text.hexadecimal 4 n) = hexText digits := by
    rw [hdigits, Text.ofChars, List.map_map]
    rfl
  have hfour : (hexText digits).length = 4 := by
    rw [hexText, List.length_map, hlength]
  have hpos : 0 < rest.length := List.length_pos_iff.2 hrest
  unfold readUnit
  rw [htext, List.take_left' hfour, List.drop_left' hfour]
  simp only [find_idx_hex_text hsmall, filter_map_hex_text hsmall, width_hex_text hsmall]
  rw [← Text.ofHexDigits, hvalue]
  cases dialect with
  | plain =>
      rw [if_neg]
      rw [List.length_append, hfour, decide_eq_true_eq]
      omega
  | strict =>
      rw [if_neg]
      rw [hlength, decide_eq_true_eq]
      omega

/-- No scalar value has the number of a first surrogate. -/
theorem is_high_of_char (char : Char) : isHigh char.toNat = false := by
  have hvalid : char.toNat.isValidChar := char.valid
  unfold Nat.isValidChar at hvalid
  simp only [isHigh, Bool.and_eq_false_iff, decide_eq_false_iff_not]
  omega

/-- No scalar value has the number of a second surrogate. -/
theorem is_low_of_char (char : Char) : isLow char.toNat = false := by
  have hvalid : char.toNat.isValidChar := char.valid
  unfold Nat.isValidChar at hvalid
  simp only [isLow, Bool.and_eq_false_iff, decide_eq_false_iff_not]
  omega

theorem read_numeric_unit {char : Char} (h : char.toNat < 0x10000) (start : Text)
    (hrest : rest ≠ []) :
    readNumeric dialect start (Text.ofChars (Text.hexadecimal 4 char.toNat) ++ rest) =
      .ok (.scalar char, rest) := by
  unfold readNumeric
  rw [read_unit_hexadecimal h start hrest]
  simp only [bind, Except.bind, is_high_of_char char, is_low_of_char char, CodePoint.of_nat_to_nat,
    Bool.false_eq_true, if_false, Option.getD_some]
  cases dialect <;> rfl

theorem read_numeric_pair {high low : Nat} (hhigh : isHigh high = true) (hlow : isLow low = true)
    {char : Char} (hjoin : joinPair high low = char.toNat) (start : Text) (hrest : rest ≠ []) :
    readNumeric dialect start (Text.ofChars (Text.hexadecimal 4 high) ++ (.scalar '\\' ::
      .scalar 'u' :: (Text.ofChars (Text.hexadecimal 4 low) ++ rest))) =
      .ok (.scalar char, rest) := by
  have hrange := hhigh
  simp only [isHigh, Bool.and_eq_true, decide_eq_true_eq] at hrange
  have hrange' := hlow
  simp only [isLow, Bool.and_eq_true, decide_eq_true_eq] at hrange'
  have hnotlow : isLow high = false := by
    simp only [isLow, Bool.and_eq_false_iff, decide_eq_false_iff_not]
    omega
  have hsecond : ¬ (Text.ofChars (Text.hexadecimal 4 low) ++ rest).length ≤ 4 := by
    obtain ⟨digits, hlength, _, hdigits, _⟩ := Text.hexadecimal_of_lt (k := 4) (n := low)
      (by decide) (show low < 0x10000 by omega)
    have hpos : 0 < rest.length := List.length_pos_iff.2 hrest
    rw [List.length_append, Text.ofChars, List.length_map, hdigits, List.length_map]
    omega
  unfold readNumeric
  rw [read_unit_hexadecimal (by omega) start (by simp)]
  simp only [bind, Except.bind, hhigh, hnotlow]
  cases dialect with
  | plain =>
      simp only [if_true, if_neg hsecond]
      rw [read_unit_hexadecimal (by omega) _ hrest]
      simp only [hlow, hjoin, CodePoint.of_nat_to_nat, if_true, Option.getD_some]
  | strict =>
      simp only [if_true]
      rw [read_unit_hexadecimal (by omega) _ hrest]
      simp only [hlow, hjoin, CodePoint.of_nat_to_nat, if_true, Option.getD_some,
        Bool.false_eq_true, if_false]

/-- Beyond `0xFFFF` an escape by number is that of a pair of surrogates. -/
theorem point_escape_pair {n : Nat} (hlow : 0x10000 ≤ n) (hhigh : n < 0x110000) :
    ∃ high low, isHigh high = true ∧ isLow low = true ∧ joinPair high low = n ∧
      pointEscape n = unitEscape high ++ unitEscape low := by
  refine ⟨0xD800 + (n - 0x10000) / 0x400, 0xDC00 + (n - 0x10000) % 0x400, ?_, ?_, ?_,
    if_neg (Nat.not_lt.2 hlow)⟩
  · simp only [isHigh, Bool.and_eq_true, decide_eq_true_eq]
    omega
  · simp only [isLow, Bool.and_eq_true, decide_eq_true_eq]
    omega
  · unfold joinPair
    omega

/-- An escape by number is read back as its code point. -/
theorem read_numeric_point (dialect : Dialect) (char : Char) (start : Text)
    (hrest : rest ≠ []) :
    ∃ digits, pointEscape char.toNat = '\\' :: 'u' :: digits ∧
      readNumeric dialect start (Text.ofChars digits ++ rest) = .ok (.scalar char, rest) := by
  by_cases hsmall : char.toNat < 0x10000
  · exact ⟨_, if_pos hsmall, read_numeric_unit hsmall start hrest⟩
  · have hbound : char.toNat < 0x110000 := by
      have hvalid : char.toNat.isValidChar := char.valid
      unfold Nat.isValidChar at hvalid
      omega
    obtain ⟨high, low, hhigh, hlow, hjoin, hescape⟩ :=
      point_escape_pair (Nat.not_lt.1 hsmall) hbound
    refine ⟨Text.hexadecimal 4 high ++ unitEscape low, hescape, ?_⟩
    have hread : readNumeric dialect start _ = _ :=
      read_numeric_pair hhigh hlow hjoin start hrest
    simpa [Text.ofChars, unitEscape] using hread

/-! ## Strings -/

theorem read_string_letter {letter char : Char} (h : escapedChar? letter = some char)
    (done : Text) (fuel : Nat) :
    readStringFrom dialect opening done (fuel + 1) (.scalar '\\' :: .scalar letter :: rest) =
      readStringFrom dialect opening (.scalar char :: done) fuel rest := by
  have hescape : readEscape dialect opening (.scalar letter :: rest) =
      .ok (.scalar char, rest) := by
    unfold readEscape
    split
    · rename_i heq
      cases heq
    · rename_i heq
      cases heq
      cases h
    · rename_i heq
      cases heq
      simp [CodePoint.char?, h]
  rw [readStringFrom, if_neg (by decide), if_pos rfl, hescape]

theorem read_string_number (char : Char) (done : Text) (fuel : Nat) (hrest : rest ≠ []) :
    readStringFrom dialect opening done (fuel + 1)
        (Text.ofChars (pointEscape char.toNat) ++ rest) =
      readStringFrom dialect opening (.scalar char :: done) fuel rest := by
  obtain ⟨digits, hdigits, hread⟩ := read_numeric_point dialect char
    (.scalar 'u' :: (Text.ofChars ((pointEscape char.toNat).drop 2) ++ rest)) hrest
  rw [hdigits] at hread ⊢
  have hescape : readEscape dialect opening (.scalar 'u' :: (Text.ofChars digits ++ rest)) =
      .ok (.scalar char, rest) := hread
  show readStringFrom dialect opening done (fuel + 1)
    (.scalar '\\' :: .scalar 'u' :: (Text.ofChars digits ++ rest)) = _
  rw [readStringFrom, if_neg (by decide), if_pos rfl, hescape]

theorem control_letter_escaped {n : Nat} {letter : Char} (h : controlLetter? n = some letter) :
    n < 0xD800 ∧ escapedChar? letter = some (Char.ofNat n) := by
  unfold controlLetter? at h
  split at h <;> cases h <;> decide

/-- A code point that was written is read back. -/
theorem read_string_point {asciiOnly : Bool} {c : CodePoint}
    (hc : asciiOnly = true → c.isSurrogate = false) (done : Text) (fuel : Nat)
    (hrest : rest ≠ []) :
    readStringFrom dialect opening done (fuel + 1) (writePoint asciiOnly c ++ rest) =
      readStringFrom dialect opening (c :: done) fuel rest := by
  unfold writePoint
  split
  · rename_i hmark
    rcases hmark with rfl | rfl <;> exact read_string_letter (by decide) done fuel
  · rename_i hmark
    obtain ⟨hquote, hslash⟩ := not_or.1 hmark
    split
    · rename_i letter hletter
      obtain ⟨hsmall, hescaped⟩ := control_letter_escaped hletter
      rw [CodePoint.eq_scalar_of_val rfl hsmall]
      exact read_string_letter hescaped done fuel
    · split
      · rename_i hnumber
        -- Surrogates are escaped by number only where all but ASCII is, and there is none there.
        have hscalar : c.isSurrogate = false := by
          rcases hnumber with hcontrol | ⟨hascii, _⟩
          · have hsmall : c.val < 0xD800 := by omega
            rw [CodePoint.eq_scalar_of_val rfl hsmall]
            rfl
          · exact hc hascii
        cases c with
        | scalar char => exact read_string_number char done fuel hrest
        | surrogate index => cases hscalar
      · rename_i hplain
        have hcontrol : ¬ c.val < 0x20 := fun h => hplain (.inl h)
        rw [List.singleton_append, readStringFrom, if_neg hquote, if_neg hslash, if_neg hcontrol]

theorem write_point_ne_nil (asciiOnly : Bool) (c : CodePoint) : writePoint asciiOnly c ≠ [] := by
  have hescape : ∀ n, pointEscape n ≠ [] := by
    intro n
    unfold pointEscape
    split <;> exact List.cons_ne_nil _ _
  unfold writePoint
  split
  · simp
  · split
    · simp [Text.ofChars]
    · split
      · simpa [Text.ofChars] using hescape c.val
      · simp

theorem length_le_write (asciiOnly : Bool) (t : Text) :
    t.length ≤ (t.flatMap (writePoint asciiOnly)).length := by
  induction t with
  | nil => exact Nat.le_refl 0
  | cons c t ih =>
      have hpos := List.length_pos_iff.2 (write_point_ne_nil asciiOnly c)
      rw [List.flatMap_cons, List.length_append, List.length_cons]
      omega

theorem read_string_from_write {asciiOnly : Bool} {t : Text}
    (ht : asciiOnly = true → Text.WellFormed t) (opening done rest : Text) {fuel : Nat}
    (hfuel : t.length < fuel) :
    readStringFrom dialect opening done fuel
        (t.flatMap (writePoint asciiOnly) ++ .scalar '"' :: rest) =
      .ok (done.reverse ++ t, rest) := by
  induction t generalizing done fuel with
  | nil =>
      cases fuel with
      | zero => cases hfuel
      | succ fuel => simp [readStringFrom]
  | cons c t ih =>
      have htail : asciiOnly = true → Text.WellFormed t := fun h point hpoint =>
        ht h point (List.mem_cons_of_mem c hpoint)
      cases fuel with
      | zero => cases hfuel
      | succ fuel =>
          rw [List.flatMap_cons, List.append_assoc,
            read_string_point (fun h => ht h c (List.mem_cons_self ..)) done fuel (by simp),
            ih htail (c :: done) (by simpa using hfuel)]
          simp

/-- A text that was written as a string is read back. -/
theorem read_string_write (dialect : Dialect) {asciiOnly : Bool} {t : Text}
    (ht : asciiOnly = true → Text.WellFormed t) (rest : Text) :
    readString dialect (writeText asciiOnly t ++ rest) = .ok (t, rest) := by
  have hshape : writeText asciiOnly t ++ rest =
      .scalar '"' :: (t.flatMap (writePoint asciiOnly) ++ .scalar '"' :: rest) := by
    simp [writeText]
  have hlength := length_le_write asciiOnly t
  rw [hshape, readString, List.drop_one, List.tail_cons]
  refine read_string_from_write ht _ [] rest ?_
  rw [List.length_cons, List.length_append]
  omega

end Json

end ProgramInterface
