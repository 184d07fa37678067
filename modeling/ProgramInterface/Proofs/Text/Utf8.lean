import Mathlib.Tactic.SplitIfs
import ProgramInterface.Proofs.Text.WellFormed
import ProgramInterface.Text.Utf8

/-!
# Decoding and encoding

The decoder reads a byte sequence if and only if it is UTF-8, and then gives the one string that the
sequence encodes (`Utf8.decode_eq_ok`, `Utf8.decode_is_ok_iff`). The encoder writes a text if and
only if it holds no surrogate (`Utf8.encode_eq_ok`).
-/

namespace ProgramInterface

namespace Utf8

/-! ## Bytes -/

/-- The number of a character is below the surrogates or above them. -/
theorem char_ranges (c : Char) :
    c.toNat < 0xD800 ∨ (0xE000 ≤ c.toNat ∧ c.toNat < 0x110000) := by
  have := c.valid
  simp only [UInt32.isValidChar, Nat.isValidChar] at this
  show c.val.toNat < _ ∨ _ ≤ c.val.toNat ∧ c.val.toNat < _
  omega

theorem to_nat_of_nat {n : Nat} (h : n < 0xD800 ∨ (0xE000 ≤ n ∧ n < 0x110000)) :
    (Char.ofNat n).toNat = n := by
  have hvalid : n.isValidChar := by
    unfold Nat.isValidChar
    omega
  rw [Char.ofNat, dif_pos hvalid]
  rfl

theorem width_eq_some {lead : UInt8} {width : Nat} :
    width? lead = some width ↔
      (width = 1 ∧ lead.toNat < 0x80) ∨
      (width = 2 ∧ 0xC2 ≤ lead.toNat ∧ lead.toNat < 0xE0) ∨
      (width = 3 ∧ 0xE0 ≤ lead.toNat ∧ lead.toNat < 0xF0) ∨
      (width = 4 ∧ 0xF0 ≤ lead.toNat ∧ lead.toNat < 0xF5) := by
  unfold width?
  simp only [UInt8.lt_iff_toNat_lt, UInt8.reduceToNat]
  split_ifs <;> simp <;> omega

theorem is_continuation_iff {b : UInt8} :
    isContinuation b = true ↔ 0x80 ≤ b.toNat ∧ b.toNat ≤ 0xBF := by
  simp [isContinuation, UInt8.le_iff_toNat_le]

theorem is_second_iff {lead b : UInt8} :
    isSecond lead b = true ↔ 0x80 ≤ b.toNat ∧ b.toNat ≤ 0xBF ∧
      (lead.toNat = 0xE0 → 0xA0 ≤ b.toNat) ∧ (lead.toNat = 0xED → b.toNat ≤ 0x9F) ∧
      (lead.toNat = 0xF0 → 0x90 ≤ b.toNat) ∧ (lead.toNat = 0xF4 → b.toNat ≤ 0x8F) := by
  unfold isSecond
  simp only [← UInt8.toNat_inj, UInt8.reduceToNat, apply_ite (· = true), Bool.and_eq_true,
    decide_eq_true_eq, UInt8.le_iff_toNat_le, is_continuation_iff]
  split_ifs <;> omega

theorem lead_bits_eq (lead : UInt8) :
    leadBits lead =
      if lead.toNat < 0x80 then lead.toNat
      else if lead.toNat < 0xE0 then lead.toNat % 0x20
      else if lead.toNat < 0xF0 then lead.toNat % 0x10
      else lead.toNat % 0x08 := by
  simp only [leadBits, UInt8.lt_iff_toNat_lt, UInt8.reduceToNat]

/-! ## One character -/

@[simp]
theorem read_tail_zero {good number : Nat} {accepts : UInt8 → Bool} {bytes rest : List UInt8}
    {result : Nat} :
    readTail good 0 number accepts bytes = .ok (result, rest) ↔ result = number ∧ rest = bytes := by
  simp [readTail, eq_comm]

theorem read_tail_succ {good missing number : Nat} {accepts : UInt8 → Bool}
    {bytes rest : List UInt8} {result : Nat} :
    readTail good (missing + 1) number accepts bytes = .ok (result, rest) ↔
      ∃ b after, bytes = b :: after ∧ accepts b = true ∧
        readTail (good + 1) missing (number * 0x40 + b.toNat % 0x40) isContinuation after =
          .ok (result, rest) := by
  cases bytes with
  | nil => simp [readTail]
  | cons b after =>
      rw [readTail]
      split
      · constructor
        · exact fun h => ⟨b, after, rfl, ‹_›, h⟩
        · rintro ⟨_, _, heq, _, h⟩
          cases heq
          exact h
      · simp only [reduceCtorEq, List.cons.injEq, false_iff]
        rintro ⟨_, _, ⟨rfl, _⟩, haccepts, _⟩
        contradiction

theorem read_char_of_tail {lead : UInt8} {bytes rest : List UInt8} {number width : Nat}
    (hwidth : width? lead = some width)
    (htail : readTail 0 (width - 1) (leadBits lead) (isSecond lead) bytes = .ok (number, rest)) :
    readChar lead bytes = .ok (Char.ofNat number, width, rest) := by
  unfold readChar
  rw [hwidth]
  dsimp only
  rw [htail]
  rfl

theorem tail_of_read_char {lead : UInt8} {bytes rest : List UInt8} {c : Char} {width : Nat}
    (h : readChar lead bytes = .ok (c, width, rest)) :
    ∃ number, width? lead = some width ∧ c = Char.ofNat number ∧
      readTail 0 (width - 1) (leadBits lead) (isSecond lead) bytes = .ok (number, rest) := by
  unfold readChar at h
  split at h
  · cases h
  · rename_i found hwidth
    cases htail : readTail 0 (found - 1) (leadBits lead) (isSecond lead) bytes with
    | error fault =>
        rw [htail] at h
        cases h
    | ok pair =>
        rw [htail] at h
        cases h
        exact ⟨pair.1, hwidth, rfl, htail⟩

/-- The bytes of a character, by the size of its number. -/
theorem encode_char_of_nat {n : Nat} (h : n < 0xD800 ∨ (0xE000 ≤ n ∧ n < 0x110000)) :
    String.utf8EncodeChar (Char.ofNat n) =
      if n ≤ 0x7F then [UInt8.ofNat n]
      else if n ≤ 0x7FF then [UInt8.ofNat (n / 0x40 % 0x20 + 0xC0), UInt8.ofNat (n % 0x40 + 0x80)]
      else if n ≤ 0xFFFF then
        [UInt8.ofNat (n / 0x1000 % 0x10 + 0xE0), UInt8.ofNat (n / 0x40 % 0x40 + 0x80),
          UInt8.ofNat (n % 0x40 + 0x80)]
      else
        [UInt8.ofNat (n / 0x40000 % 0x08 + 0xF0), UInt8.ofNat (n / 0x1000 % 0x40 + 0x80),
          UInt8.ofNat (n / 0x40 % 0x40 + 0x80), UInt8.ofNat (n % 0x40 + 0x80)] := by
  have hval : (Char.ofNat n).val.toNat = n := to_nat_of_nat h
  unfold String.utf8EncodeChar
  rw [hval]

theorem byte_eq {b : UInt8} {n : Nat} (h : b.toNat = n) : b = UInt8.ofNat n := by
  rw [← h, UInt8.ofNat_toNat]

/-- What is read off a byte sequence as a character encodes it. -/
theorem encode_of_read_char {lead : UInt8} {bytes rest : List UInt8} {c : Char} {width : Nat}
    (h : readChar lead bytes = .ok (c, width, rest)) :
    lead :: bytes = String.utf8EncodeChar c ++ rest := by
  obtain ⟨number, hwidth, rfl, htail⟩ := tail_of_read_char h
  rw [lead_bits_eq] at htail
  have hlead := lead.toNat_lt
  -- The range of the first byte gives the width. With the ranges of the others it bounds the number,
  -- which tells the branch of the encoder.
  rcases width_eq_some.1 hwidth with
    ⟨rfl, hrange⟩ | ⟨rfl, hrange⟩ | ⟨rfl, hrange⟩ | ⟨rfl, hrange⟩
  · obtain ⟨hnumber, rfl⟩ := read_tail_zero.1 htail
    rw [if_pos hrange] at hnumber
    rw [encode_char_of_nat (by omega), if_pos (by omega), ← byte_eq hnumber.symm]
    rfl
  · obtain ⟨b, rest, rfl, hb, htail⟩ := read_tail_succ.1 htail
    obtain ⟨hnumber, rfl⟩ := read_tail_zero.1 htail
    rw [if_neg (by omega), if_pos (by omega)] at hnumber
    rw [is_second_iff] at hb
    rw [encode_char_of_nat (by omega), if_neg (by omega), if_pos (by omega)]
    rw [← byte_eq (b := lead) (by omega), ← byte_eq (b := b) (by omega)]
    rfl
  · obtain ⟨b, _, rfl, hb, htail⟩ := read_tail_succ.1 htail
    obtain ⟨b', rest, rfl, hb', htail⟩ := read_tail_succ.1 htail
    obtain ⟨hnumber, rfl⟩ := read_tail_zero.1 htail
    rw [if_neg (by omega), if_neg (by omega), if_pos (by omega)] at hnumber
    rw [is_second_iff] at hb
    rw [is_continuation_iff] at hb'
    rw [encode_char_of_nat (by omega), if_neg (by omega), if_neg (by omega), if_pos (by omega)]
    rw [← byte_eq (b := lead) (by omega), ← byte_eq (b := b) (by omega),
      ← byte_eq (b := b') (by omega)]
    rfl
  · obtain ⟨b, _, rfl, hb, htail⟩ := read_tail_succ.1 htail
    obtain ⟨b', _, rfl, hb', htail⟩ := read_tail_succ.1 htail
    obtain ⟨b'', rest, rfl, hb'', htail⟩ := read_tail_succ.1 htail
    obtain ⟨hnumber, rfl⟩ := read_tail_zero.1 htail
    rw [if_neg (by omega), if_neg (by omega), if_neg (by omega)] at hnumber
    rw [is_second_iff] at hb
    rw [is_continuation_iff] at hb' hb''
    rw [encode_char_of_nat (by omega), if_neg (by omega), if_neg (by omega), if_neg (by omega)]
    rw [← byte_eq (b := lead) (by omega), ← byte_eq (b := b) (by omega),
      ← byte_eq (b := b') (by omega), ← byte_eq (b := b'') (by omega)]
    rfl

/-- A character is read off its encoding. -/
theorem read_char_encode (c : Char) (rest : List UInt8) :
    ∃ lead tail width, String.utf8EncodeChar c = lead :: tail ∧
      readChar lead (tail ++ rest) = .ok (c, width, rest) := by
  obtain ⟨n, hn, rfl⟩ : ∃ n, (n < 0xD800 ∨ (0xE000 ≤ n ∧ n < 0x110000)) ∧ Char.ofNat n = c :=
    ⟨c.toNat, char_ranges c, Char.ofNat_toNat c⟩
  rw [encode_char_of_nat hn]
  -- In each branch three things are left: the range of the first byte, those of the others, and that
  -- their bits make up the number.
  split_ifs with hone htwo hthree
  · refine ⟨_, _, 1, rfl, read_char_of_tail (width_eq_some.2 ?_) (read_tail_zero.2 ⟨?_, rfl⟩)⟩
    · rw [UInt8.toNat_ofNat']
      omega
    · simp only [lead_bits_eq, UInt8.toNat_ofNat']
      split_ifs <;> omega
  · refine ⟨_, _, 2, rfl, read_char_of_tail (width_eq_some.2 ?_)
      (read_tail_succ.2 ⟨_, _, rfl, is_second_iff.2 ?_, read_tail_zero.2 ⟨?_, rfl⟩⟩)⟩
    · rw [UInt8.toNat_ofNat']
      omega
    · simp only [UInt8.toNat_ofNat']
      omega
    · simp only [lead_bits_eq, UInt8.toNat_ofNat']
      split_ifs <;> omega
  · refine ⟨_, _, 3, rfl, read_char_of_tail (width_eq_some.2 ?_)
      (read_tail_succ.2 ⟨_, _, rfl, is_second_iff.2 ?_,
        read_tail_succ.2 ⟨_, _, rfl, is_continuation_iff.2 ?_, read_tail_zero.2 ⟨?_, rfl⟩⟩⟩)⟩
    · rw [UInt8.toNat_ofNat']
      omega
    · simp only [UInt8.toNat_ofNat']
      omega
    · rw [UInt8.toNat_ofNat']
      omega
    · simp only [lead_bits_eq, UInt8.toNat_ofNat']
      split_ifs <;> omega
  · refine ⟨_, _, 4, rfl, read_char_of_tail (width_eq_some.2 ?_)
      (read_tail_succ.2 ⟨_, _, rfl, is_second_iff.2 ?_,
        read_tail_succ.2 ⟨_, _, rfl, is_continuation_iff.2 ?_,
          read_tail_succ.2 ⟨_, _, rfl, is_continuation_iff.2 ?_, read_tail_zero.2 ⟨?_, rfl⟩⟩⟩⟩)⟩
    · rw [UInt8.toNat_ofNat']
      omega
    · simp only [UInt8.toNat_ofNat']
      omega
    · rw [UInt8.toNat_ofNat']
      omega
    · rw [UInt8.toNat_ofNat']
      omega
    · simp only [lead_bits_eq, UInt8.toNat_ofNat']
      split_ifs <;> omega

/-! ## Byte sequences -/

theorem length_le_of_read_char {lead : UInt8} {bytes rest : List UInt8} {c : Char} {width : Nat}
    (h : readChar lead bytes = .ok (c, width, rest)) : rest.length ≤ bytes.length := by
  have hlength := congrArg List.length (encode_of_read_char h)
  have hpos := List.length_pos_iff.2 (String.utf8EncodeChar_ne_nil (c := c))
  simp only [List.length_cons, List.length_append] at hlength
  omega

/-- What is read off a byte sequence is what the sequence encodes. -/
theorem encode_of_decode_from {fuel position : Nat} {bytes : List UInt8} {done chars : List Char}
    (hfuel : bytes.length ≤ fuel) (h : decodeFrom fuel position bytes done = .ok chars) :
    ∃ read, chars = done.reverse ++ read ∧ bytes = read.flatMap String.utf8EncodeChar := by
  induction fuel generalizing position bytes done with
  | zero =>
      obtain rfl : bytes = [] := List.length_eq_zero_iff.1 (by omega)
      cases h
      exact ⟨[], by simp⟩
  | succ fuel ih =>
      cases bytes with
      | nil =>
          cases h
          exact ⟨[], by simp⟩
      | cons lead rest =>
          rw [decodeFrom] at h
          split at h
          · rename_i c width after hchar
            have hlength := length_le_of_read_char hchar
            obtain ⟨read, rfl, rfl⟩ := ih (by simp at hfuel; omega) h
            refine ⟨c :: read, by simp, ?_⟩
            rw [encode_of_read_char hchar]
            rfl
          · cases h

theorem decode_from_encode (chars : List Char) {fuel position : Nat} {done : List Char}
    (hfuel : chars.length ≤ fuel) :
    decodeFrom fuel position (chars.flatMap String.utf8EncodeChar) done =
      .ok (done.reverse ++ chars) := by
  induction chars generalizing fuel position done with
  | nil => cases fuel <;> simp [decodeFrom]
  | cons c rest ih =>
      cases fuel with
      | zero => simp at hfuel
      | succ fuel =>
          obtain ⟨lead, tail, width, hc, hchar⟩ :=
            read_char_encode c (rest.flatMap String.utf8EncodeChar)
          rw [List.flatMap_cons, hc, List.cons_append, decodeFrom, hchar]
          dsimp only
          rw [ih (by simp at hfuel; omega)]
          simp

theorem length_le_encode (chars : List Char) :
    chars.length ≤ (chars.flatMap String.utf8EncodeChar).length := by
  induction chars with
  | nil => simp
  | cons c rest ih =>
      have hpos := List.length_pos_iff.2 (String.utf8EncodeChar_ne_nil (c := c))
      simp only [List.flatMap_cons, List.length_append, List.length_cons]
      omega

/-- Decoding undoes encoding, and reads nothing else. -/
theorem decode_eq_ok {bytes : List UInt8} {s : String} :
    decode bytes = .ok s ↔ bytes = s.toList.flatMap String.utf8EncodeChar := by
  unfold decode
  constructor
  · intro h
    cases hchars : decodeFrom bytes.length 0 bytes [] with
    | error fault =>
        rw [hchars] at h
        cases h
    | ok chars =>
        rw [hchars] at h
        cases h
        obtain ⟨read, rfl, hread⟩ := encode_of_decode_from (Nat.le_refl _) hchars
        simpa using hread
  · rintro rfl
    rw [decode_from_encode _ (length_le_encode _)]
    simp [Except.map]

/-- A byte sequence is decoded if and only if it is UTF-8. -/
theorem decode_is_ok_iff {bytes : List UInt8} :
    (∃ s, decode bytes = .ok s) ↔ ByteArray.IsValidUTF8 bytes.toByteArray := by
  constructor
  · rintro ⟨s, hs⟩
    exact ⟨s.toList, by rw [decode_eq_ok.1 hs, List.utf8Encode]⟩
  · rintro ⟨chars, hchars⟩
    refine ⟨String.ofList chars, decode_eq_ok.2 ?_⟩
    rw [String.toList_ofList]
    have := congrArg (fun b => b.data.toList) hchars
    simpa [List.utf8Encode] using this

/-! ## Texts -/

theorem encode_fault_eq_none {t : Text} : encodeFault? t = none ↔ t.WellFormed := by
  unfold encodeFault? Text.WellFormed
  cases hfound : t.findIdx? CodePoint.isSurrogate with
  | none => simpa using hfound
  | some first =>
      simp only [reduceCtorEq, false_iff]
      intro hplain
      rw [List.findIdx?_eq_none_iff.2 hplain] at hfound
      cases hfound

/-- A text without surrogates is a string. -/
theorem of_string_filter_map {t : Text} (h : t.WellFormed) :
    Text.ofString (String.ofList (t.filterMap CodePoint.char?)) = t := by
  rw [Text.ofString, String.toList_ofList]
  induction t with
  | nil => rfl
  | cons c rest ih =>
      have hrest := ih fun point hpoint => h point (List.mem_cons_of_mem c hpoint)
      cases c with
      | scalar char => exact congrArg (CodePoint.scalar char :: ·) hrest
      | surrogate index => cases h (.surrogate index) (List.mem_cons_self ..)

/-- A text is encoded if and only if it is a string. -/
theorem encode_eq_ok {t : Text} {s : String} : encode t = .ok s ↔ t = Text.ofString s := by
  unfold encode
  constructor
  · intro h
    split at h
    · cases h
    · cases h
      exact (of_string_filter_map (encode_fault_eq_none.1 ‹_›)).symm
  · rintro rfl
    rw [encode_fault_eq_none.2 (Text.well_formed_of_string s)]
    simp [Text.ofString, Text.ofChars, List.filterMap_map, Function.comp_def, CodePoint.char?]

/-- A text is encoded if and only if it holds no surrogate. -/
theorem encode_is_ok_iff {t : Text} : (∃ s, encode t = .ok s) ↔ t.WellFormed := by
  constructor
  · rintro ⟨s, hs⟩
    rw [encode_eq_ok.1 hs]
    exact Text.well_formed_of_string s
  · exact fun h => ⟨_, encode_eq_ok.2 (of_string_filter_map h).symm⟩

/-! ## Blocks -/

theorem decode_part_encode (chars : List Char) {fuel position : Nat} {done : List Char}
    (hfuel : chars.length ≤ fuel) :
    decodePart fuel position (encodeChars chars) done = .ok (chars.reverse ++ done, []) := by
  induction chars generalizing fuel position done with
  | nil => cases fuel <;> simp [decodePart, encodeChars]
  | cons c rest ih =>
      cases fuel with
      | zero => simp at hfuel
      | succ fuel =>
          obtain ⟨lead, tail, width, hc, hchar⟩ := read_char_encode c (encodeChars rest)
          rw [encodeChars, List.flatMap_cons, ← encodeChars, hc, List.cons_append, decodePart, hchar]
          dsimp only
          rw [ih (by simp at hfuel; omega)]
          simp

/-- Plain characters are encoded as one byte each. -/
theorem encode_plain {chars : List Char} (h : ∀ c ∈ chars, c.toNat < 0x80) :
    encodeChars chars = chars.map fun c => UInt8.ofNat c.toNat := by
  have hchar : ∀ c : Char, c.toNat < 0x80 → String.utf8EncodeChar c = [UInt8.ofNat c.toNat] := by
    intro c hc
    have hencoded := encode_char_of_nat (char_ranges c)
    rwa [Char.ofNat_toNat, if_pos (Nat.le_of_lt_succ hc)] at hencoded
  induction chars with
  | nil => rfl
  | cons c chars ih =>
      obtain ⟨hc, hchars⟩ := List.forall_mem_cons.1 h
      rw [encodeChars, List.flatMap_cons, ← encodeChars, hchar c hc, ih hchars]
      rfl

theorem decode_blocks_from_succ {pending bytes : List UInt8} (hne : bytes ≠ []) (fuel : Nat)
    (done : List Char) :
    decodeBlocksFrom (fuel + 1) pending bytes done = (do
      let together := pending ++ bytes.take blockSize
      let (done, pending) ← decodePart together.length 0 together done
      decodeBlocksFrom fuel pending (bytes.drop blockSize) done) := by
  cases bytes with
  | nil => contradiction
  | cons b bytes => rfl

theorem decode_blocks_from_encode {chars : List Char} (h : ∀ c ∈ chars, c.toNat < 0x80) {fuel : Nat}
    (hfuel : chars.length ≤ fuel * blockSize) (done : List Char) :
    decodeBlocksFrom fuel [] (encodeChars chars) done = .ok (done.reverse ++ chars) := by
  induction fuel generalizing chars done with
  | zero =>
      obtain rfl : chars = [] := List.length_eq_zero_iff.1 (by omega)
      simp [encodeChars, decodeBlocksFrom, decodeFrom]
  | succ fuel ih =>
      cases chars with
      | nil => simp [encodeChars, decodeBlocksFrom, decodeFrom]
      | cons c chars =>
          have htake : (encodeChars (c :: chars)).take blockSize =
              encodeChars ((c :: chars).take blockSize) := by
            rw [encode_plain h, encode_plain fun d hd => h d (List.mem_of_mem_take hd), List.map_take]
          have hdrop : (encodeChars (c :: chars)).drop blockSize =
              encodeChars ((c :: chars).drop blockSize) := by
            rw [encode_plain h, encode_plain fun d hd => h d (List.mem_of_mem_drop hd), List.map_drop]
          have hlength : ((c :: chars).take blockSize).length ≤
              (encodeChars ((c :: chars).take blockSize)).length := length_le_encode _
          have hrest : ((c :: chars).drop blockSize).length ≤ fuel * blockSize := by
            rw [List.length_drop]
            rw [Nat.succ_mul] at hfuel
            omega
          have hne : encodeChars (c :: chars) ≠ [] := by simp [encode_plain h]
          rw [decode_blocks_from_succ hne, hdrop]
          simp only [List.nil_append, htake, decode_part_encode _ hlength]
          show decodeBlocksFrom fuel [] (encodeChars ((c :: chars).drop blockSize)) _ = _
          rw [ih (fun d hd => h d (List.mem_of_mem_drop hd)) hrest]
          simp

/-- Plain characters come back when they are read block by block. -/
theorem decode_blocks_encode {chars : List Char} (h : ∀ c ∈ chars, c.toNat < 0x80) :
    decodeBlocks (encodeChars chars) = .ok chars := by
  have hlength : chars.length ≤ ((encodeChars chars).length / blockSize + 1) * blockSize := by
    have hbytes : chars.length ≤ (encodeChars chars).length := length_le_encode chars
    unfold blockSize
    omega
  exact decode_blocks_from_encode h hlength []

end Utf8

end ProgramInterface
