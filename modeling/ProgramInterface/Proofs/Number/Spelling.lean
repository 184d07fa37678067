import Mathlib.Data.Nat.Digits.Defs
import ProgramInterface.Number.Literal
import ProgramInterface.Proofs.Number.Digits
import ProgramInterface.Proofs.Text.Ends

/-!
# Reading integer literals

A spelling of an integer literal (`IntegerLiteral.Spelling`) has a base, digits of that base with
underscores among them, and perhaps an integer type. It is read as the number that its digits
denote, unless it has too many decimal ones (`integer_literals_read`): no digits are taken for a type
or for the mark of a base, and underscores, zeros in front and the type make no difference.
-/

namespace ProgramInterface

namespace IntegerLiteral

/-! ## Spellings -/

/-- A base in which integer literals are written. -/
inductive Base where
  | decimal
  | hexadecimal
  | octal
  | binary
  deriving DecidableEq

namespace Base

def number : Base → Nat
  | decimal => 10
  | hexadecimal => 16
  | octal => 8
  | binary => 2

/-- What stands in front of the digits of a base. -/
def mark : Base → List Char
  | decimal => []
  | hexadecimal => ['0', 'x']
  | octal => ['0', 'o']
  | binary => ['0', 'b']

end Base

/-- The value of a digit, small or capital. Other characters have none below sixteen. -/
def digitValue (c : Char) : Nat :=
  "0123456789abcdef".toList.idxOf c.toLower

/-- The integer types: unsigned and signed ones of every width. -/
def integerTypes : List String :=
  ["u", "i"].flatMap fun sign => ["8", "16", "32", "64", "128", "size"].map (sign ++ ·)

/-- An integer literal: digits of a base, at least one, with underscores anywhere behind the mark of
the base, or behind the first digit if it has no mark; and perhaps an integer type at its end. -/
structure Spelling where
  base : Base
  body : List Char
  suffix : String
  body_chars : ∀ c ∈ body, c = '_' ∨ digitValue c < base.number
  some_digit : ∃ c ∈ body, c ≠ '_'
  first_digit : base = .decimal → body.head? ≠ some '_'
  suffix_known : suffix ∈ "" :: integerTypes

namespace Spelling

/-- The literal itself. -/
def text (s : Spelling) : Text :=
  Text.ofChars (s.base.mark ++ s.body ++ s.suffix.toList)

/-- The digits without the underscores. -/
def figures (s : Spelling) : List Char :=
  s.body.filter (· ≠ '_')

/-- The values of the digits. -/
def digits (s : Spelling) : List Nat :=
  s.figures.map digitValue

end Spelling

/-! ## Digits -/

theorem number_le (base : Base) : base.number ≤ 16 := by
  cases base <;> decide

/-- Only characters up to the last letter have a value as digits. -/
theorem low_of_digit_value {c : Char} (h : digitValue c < 16) : c.toNat < 0x7B := by
  have hmem : c.toLower ∈ "0123456789abcdef".toList := List.idxOf_lt_length_iff.1 h
  by_cases hcapital : 'A'.val ≤ c.val ∧ c.val ≤ 'Z'.val
  · exact Nat.lt_of_le_of_lt (UInt32.le_iff_toNat_le.1 hcapital.2) (by decide)
  · have hlower : c.toLower = c := dif_neg hcapital
    rw [hlower] at hmem
    exact (by decide : ∀ c ∈ "0123456789abcdef".toList, c.toNat < 0x7B) c hmem

theorem digit_in_of_value {base : Base} {c : Char} (h : digitValue c < base.number) :
    IntegerText.digitIn? base.number c = some (digitValue c) := by
  have hascii : ∀ n < 0x7B, digitValue (Char.ofNat n) < base.number →
      IntegerText.digitIn? base.number (Char.ofNat n) = some (digitValue (Char.ofNat n)) := by
    cases base <;> decide
  have hlow := low_of_digit_value (Nat.lt_of_lt_of_le h (number_le base))
  have hvalue := hascii c.toNat hlow
  rw [Char.ofNat_toNat] at hvalue
  exact hvalue h

/-- No digit of a base is the first letter of a type or a line end. -/
theorem digit_not_type {base : Base} {c : Char} (h : digitValue c < base.number) :
    c ∉ ['u', 'i', '\n'] := by
  have hnone : ∀ c ∈ ['u', 'i', '\n'], ¬ digitValue c < base.number := by
    cases base <;> decide
  exact fun hmem => hnone c hmem h

/-- No decimal digit is the letter of a mark. -/
theorem decimal_not_mark {c : Char} (h : digitValue c < 10) : c.toLower ∉ ['x', 'o', 'b'] := by
  have hnone : ∀ letter ∈ ['x', 'o', 'b'], ¬ "0123456789abcdef".toList.idxOf letter < 10 := by
    decide
  exact fun hmem => hnone _ hmem h

/-! ## The type behind a literal -/

theorem type_names_eq : typeNames = integerTypes.map Text.ofString := by
  decide

/-- What stands in front of a type is kept: no type ends in another one. -/
theorem drop_type_append (front : Text) {name : Text} (h : name ∈ typeNames) :
    dropType (front ++ name) = front := by
  have hapart : ∀ other ∈ typeNames, ∀ name ∈ typeNames, other <:+ name → other = name := by
    decide
  have hdrop : ∀ other ∈ typeNames, other ≠ name →
      Text.dropEnd? other (front ++ name) = none := by
    intro other hother hne
    -- Of two endings of one text the shorter one is an ending of the longer one.
    refine Text.drop_end_of_not_suffix fun hsuffix => hne ?_
    have hcompare := List.suffix_or_suffix_of_suffix hsuffix (List.suffix_append front name)
    rcases hcompare with hshort | hlong
    · exact hapart other hother name h hshort
    · exact (hapart name h other hother hlong).symm
  -- So the first type that is an ending is the one behind the front, wherever it is in the list.
  unfold dropType
  cases hfound : typeNames.findSome? (Text.dropEnd? · (front ++ name)) with
  | none =>
      have hnone := List.findSome?_eq_none_iff.1 hfound name h
      rw [Text.drop_end_append] at hnone
      cases hnone
  | some kept =>
      obtain ⟨other, hother, hkept⟩ := List.exists_of_findSome?_eq_some hfound
      rcases eq_or_ne other name with rfl | hne
      · rw [Text.drop_end_append] at hkept
        exact (Option.some.inj hkept).symm
      · rw [hdrop other hother hne] at hkept
        cases hkept

/-- Without the first letter of a type a text has no type at its end. -/
theorem drop_type_of_no_letter {t : Text} (h : ∀ c ∈ t, c ≠ .scalar 'u' ∧ c ≠ .scalar 'i') :
    dropType t = t := by
  have hletter : ∀ name ∈ typeNames, .scalar 'u' ∈ name ∨ .scalar 'i' ∈ name := by
    decide
  have hnone : typeNames.findSome? (Text.dropEnd? · t) = none := by
    refine List.findSome?_eq_none_iff.2 fun name hname => Text.drop_end_of_not_suffix fun hsuffix => ?_
    rcases hletter name hname with hmem | hmem
    · exact (h _ (hsuffix.subset hmem)).1 rfl
    · exact (h _ (hsuffix.subset hmem)).2 rfl
  rw [dropType, hnone]
  rfl

/-- The type behind characters that begin no type is left out. -/
theorem drop_suffix_append {chars : List Char} (h : ∀ c ∈ chars, c ∉ ['u', 'i', '\n'])
    {suffix : String} (hsuffix : suffix ∈ "" :: integerTypes) :
    dropSuffix (Text.ofChars (chars ++ suffix.toList)) = Text.ofChars chars := by
  have hsplit : Text.ofChars (chars ++ suffix.toList) =
      Text.ofChars chars ++ Text.ofString suffix := List.map_append
  have hline : ¬ Text.ofString "\n" <:+ Text.ofChars (chars ++ suffix.toList) := by
    intro hend
    have hplain : ∀ suffix ∈ "" :: integerTypes, '\n' ∉ suffix.toList := by decide
    have hmem : CodePoint.scalar '\n' ∈ Text.ofChars (chars ++ suffix.toList) :=
      hend.subset (by decide)
    simp only [Text.ofChars, List.mem_map, CodePoint.scalar.injEq, exists_eq_right,
      List.mem_append] at hmem
    rcases hmem with hchar | htype
    · exact h _ hchar (by decide)
    · exact hplain suffix hsuffix htype
  rw [dropSuffix, Text.drop_end_of_not_suffix hline]
  dsimp only
  rw [hsplit]
  rcases List.mem_cons.1 hsuffix with rfl | htype
  · rw [show Text.ofString "" = [] from rfl, List.append_nil]
    refine drop_type_of_no_letter fun c hc => ?_
    obtain ⟨char, hchar, rfl⟩ := List.mem_map.1 hc
    have hnot := h char hchar
    simp_all
  · exact drop_type_append _ (type_names_eq ▸ List.mem_map_of_mem htype)

/-! ## The mark of the base -/

/-- Without the letter of a mark a text is decimal. -/
theorem split_base_unmarked {chars : List Char} (h : ∀ c ∈ chars, c.toLower ∉ ['x', 'o', 'b']) :
    splitBase (Text.ofChars chars) = (10, Text.ofChars chars) := by
  unfold splitBase
  split
  · rename_i letter rest heq
    have hmem : CodePoint.scalar letter ∈ Text.ofChars chars := by simp [heq]
    have hletter := h letter (by simpa [Text.ofChars] using hmem)
    split <;> simp_all
  · rfl

/-- The mark of a base is taken for nothing else, and no digits are taken for one. -/
theorem split_base_mark {base : Base} {chars : List Char}
    (h : ∀ c ∈ chars, digitValue c < base.number) :
    splitBase (Text.ofChars (base.mark ++ chars)) = (base.number, Text.ofChars chars) := by
  cases base with
  | decimal => exact split_base_unmarked fun c hc => decimal_not_mark (h c hc)
  | _ => rfl

/-! ## The number -/

theorem of_digits_eq (base : Nat) (digits : List Nat) :
    IntegerText.ofDigits base digits = Nat.ofDigits base digits.reverse := by
  rw [IntegerText.ofDigits, Nat.ofDigits_eq_foldr, List.foldr_reverse]
  congr 1
  funext value d
  simp [Nat.add_comm, Nat.mul_comm]

/-- Leaving out underscores, one character after the other. -/
theorem filter_of_chars (chars : List Char) :
    (Text.ofChars chars).filter (· != .scalar '_') = Text.ofChars (chars.filter (· ≠ '_')) := by
  have hscalar : ((· != .scalar '_') ∘ CodePoint.scalar : Char → Bool) = (· ≠ '_') := by
    funext c
    by_cases hc : c = '_' <;> simp [hc]
  rw [Text.ofChars, List.filter_map, hscalar]
  rfl

/-- Without underscores, the type and the mark of its base, a literal is read as a number. -/
theorem value_eq_read {base : Nat} {literal front chars : List Char} {suffix : String}
    (hgaps : literal.filter (· ≠ '_') = front ++ suffix.toList)
    (hfront : ∀ c ∈ front, c ∉ ['u', 'i', '\n']) (hsuffix : suffix ∈ "" :: integerTypes)
    (hsplit : splitBase (Text.ofChars front) = (base, Text.ofChars chars))
    (hplain : ∀ c ∈ chars, c.toNat < 0x7F) :
    value? (Text.ofChars literal) = (IntegerText.readChars base chars).toOption := by
  rw [value?, filter_of_chars, hgaps, drop_suffix_append hfront hsuffix, hsplit]
  dsimp only
  rw [IntegerText.read, IntegerText.map_plain_of_chars hplain]

namespace Spelling

variable {s t : Spelling}

theorem figure_value {c : Char} (h : c ∈ s.figures) : digitValue c < s.base.number := by
  obtain ⟨hc, hne⟩ := List.mem_filter.1 h
  exact (s.body_chars c hc).resolve_left (of_decide_eq_true hne)

theorem figures_ne_nil (s : Spelling) : s.figures ≠ [] := by
  obtain ⟨c, hc, hne⟩ := s.some_digit
  exact List.ne_nil_of_mem (List.mem_filter.2 ⟨hc, decide_eq_true hne⟩)

theorem figure_digit {c : Char} (h : c ∈ s.figures) :
    IntegerText.digitIn? s.base.number c = some (digitValue c) :=
  digit_in_of_value (figure_value h)

theorem figure_plain {c : Char} (h : c ∈ s.figures) : c.toNat < 0x7F :=
  Nat.lt_of_le_of_lt (IntegerText.digit_range (figure_digit h)).2 (by decide)

/-- The number that a literal denotes, unless it has too many decimal digits. -/
def number? (s : Spelling) : Option Int :=
  if s.base = .decimal ∧ 4300 < s.digits.length then none
  else some (Nat.ofDigits s.base.number s.digits.reverse : Nat)

theorem read_figures (s : Spelling) :
    (IntegerText.readChars s.base.number s.figures).toOption = s.number? := by
  have hlimit : s.base.number = 10 ∧ IntegerText.decimalLimit < s.figures.length ↔
      s.base = .decimal ∧ 4300 < s.digits.length := by
    have hbase : s.base.number = 10 ↔ s.base = .decimal := by
      cases s.base <;> decide
    rw [digits, List.length_map]
    exact and_congr_left' hbase
  rw [IntegerText.read_chars_digits (fun _ => figure_digit) s.figures_ne_nil,
    if_congr hlimit rfl rfl, number?, ← of_digits_eq]
  split <;> rfl

/-- A literal has the value of its digits. -/
theorem value_text (s : Spelling) : value? s.text = s.number? := by
  have hmark : s.base.mark.filter (· ≠ '_') = s.base.mark ∧
      ∀ c ∈ s.base.mark, c ∉ ['u', 'i', '\n'] := by
    cases s.base <;> decide
  have hsuffix : s.suffix.toList.filter (· ≠ '_') = s.suffix.toList :=
    (by decide : ∀ suffix ∈ "" :: integerTypes, suffix.toList.filter (· ≠ '_') = suffix.toList)
      s.suffix s.suffix_known
  have hgaps : (s.base.mark ++ s.body ++ s.suffix.toList).filter (· ≠ '_') =
      s.base.mark ++ s.figures ++ s.suffix.toList := by
    rw [List.filter_append, List.filter_append, hmark.1, hsuffix, figures]
  have hfront : ∀ c ∈ s.base.mark ++ s.figures, c ∉ ['u', 'i', '\n'] := fun c hc =>
    (List.mem_append.1 hc).elim (hmark.2 c) fun hdigit => digit_not_type (figure_value hdigit)
  rw [text, value_eq_read hgaps hfront s.suffix_known (split_base_mark fun _ => figure_value)
    fun _ => figure_plain, read_figures]

/-- Digits with zeros in front denote the same number. -/
theorem number_leading_zeros {zeros : Nat} (hbase : t.base = s.base)
    (hdigits : t.digits = List.replicate zeros 0 ++ s.digits)
    (hlimit : t.base = .decimal → t.digits.length ≤ 4300) : t.number? = s.number? := by
  have hlength : s.digits.length ≤ t.digits.length := by
    rw [hdigits, List.length_append]
    exact Nat.le_add_left ..
  have hshort : ¬ (t.base = .decimal ∧ 4300 < t.digits.length) := fun hlong =>
    Nat.not_lt.2 (hlimit hlong.1) hlong.2
  have hshort' : ¬ (s.base = .decimal ∧ 4300 < s.digits.length) := fun hlong =>
    hshort ⟨hbase.trans hlong.1, Nat.lt_of_lt_of_le hlong.2 hlength⟩
  rw [number?, number?, if_neg hshort, if_neg hshort', hbase, hdigits, List.reverse_append,
    List.reverse_replicate, Nat.ofDigits_append_replicate_zero]

/-- Digits in front of the name of a floating-point type are not read, however many they are. -/
theorem read_float (hbase : s.base = .decimal) {name : String} (hname : name ∈ ["f32", "f64"]) :
    (IntegerText.readChars 10 (s.figures ++ name.toList)).toOption = none := by
  have hnames : ∀ name ∈ ["f32", "f64"],
      name.toList.head? = some 'f' ∧ name.toList.all IntegerText.isGap = false := by
    decide
  obtain ⟨hhead, hgap⟩ := hnames name hname
  have hstop : ∀ c ∈ name.toList.head?, IntegerText.digitIn? 10 c = none ∧ c ≠ '_' := by
    rw [hhead]
    rintro _ ⟨⟩
    exact ⟨rfl, by decide⟩
  have hdigits : ∀ c ∈ s.figures, IntegerText.digitIn? 10 c = some (digitValue c) := by
    have hnumber : s.base.number = 10 := by rw [hbase, Base.number]
    exact fun c hc => hnumber ▸ figure_digit hc
  have hmark : IntegerText.dropMark 10 (s.figures ++ name.toList) = s.figures ++ name.toList := by
    unfold IntegerText.dropMark
    split <;> rfl
  rw [IntegerText.read_chars_append hdigits s.figures_ne_nil hmark hstop, hgap]
  split <;> rfl

/-- A decimal literal has no value if the name of a floating-point type stands at its end. -/
theorem value_float (hbase : s.base = .decimal) (hsuffix : s.suffix = "") {name : String}
    (hname : name ∈ ["f32", "f64"]) : value? (s.text ++ Text.ofString name) = none := by
  have hnames : ∀ name ∈ ["f32", "f64"], name.toList.filter (· ≠ '_') = name.toList ∧
      ∀ c ∈ name.toList,
        c ∉ ['u', 'i', '\n'] ∧ c.toLower ∉ ['x', 'o', 'b'] ∧ c.toNat < 0x7F := by
    decide
  obtain ⟨hname_gaps, hname_chars⟩ := hnames name hname
  have htext : s.text ++ Text.ofString name = Text.ofChars (s.body ++ name.toList) := by
    rw [text, hbase, hsuffix, Base.mark, Text.ofString, Text.ofChars, Text.ofChars, Text.ofChars]
    simp
  have hgaps : (s.body ++ name.toList).filter (· ≠ '_') =
      s.figures ++ name.toList ++ "".toList := by
    rw [List.filter_append, hname_gaps, figures]
    exact (List.append_nil _).symm
  have hchars : ∀ c ∈ s.figures ++ name.toList,
      c ∉ ['u', 'i', '\n'] ∧ c.toLower ∉ ['x', 'o', 'b'] ∧ c.toNat < 0x7F := by
    intro c hc
    rcases List.mem_append.1 hc with hdigit | hletter
    · have hvalue := figure_value hdigit
      rw [hbase] at hvalue
      exact ⟨digit_not_type hvalue, decimal_not_mark hvalue, figure_plain hdigit⟩
    · exact hname_chars c hletter
  rw [htext, value_eq_read hgaps (fun c hc => (hchars c hc).1) (List.mem_cons_self ..)
    (split_base_unmarked fun c hc => (hchars c hc).2.1) (fun c hc => (hchars c hc).2.2),
    read_float hbase hname]

end Spelling

/-- An integer literal has the value of its digits in its base, and none if it has more than 4300
decimal ones. So literals with the same digits have the same value, whatever their underscores and
types are, and so do those with zeros in front, within that limit. A decimal literal with the name of a
floating-point type at its end has none. -/
theorem integer_literals_read (s : Spelling) :
    value? s.text =
      (if s.base = .decimal ∧ 4300 < s.digits.length then none
        else some ((Nat.ofDigits s.base.number s.digits.reverse : Nat) : Int)) ∧
    (∀ t : Spelling, t.base = s.base → t.digits = s.digits → value? t.text = value? s.text) ∧
    (∀ t : Spelling, ∀ zeros, t.base = s.base → t.digits = List.replicate zeros 0 ++ s.digits →
      (t.base = .decimal → t.digits.length ≤ 4300) → value? t.text = value? s.text) ∧
    (s.base = .decimal → s.suffix = "" → ∀ name ∈ ["f32", "f64"],
      value? (s.text ++ Text.ofString name) = none) := by
  refine ⟨s.value_text, ?_, ?_, fun hbase hsuffix _ => Spelling.value_float hbase hsuffix⟩
  · intro t hbase hdigits
    rw [t.value_text, s.value_text, Spelling.number?, Spelling.number?, hbase, hdigits]
  · intro t zeros hbase hdigits hlimit
    rw [t.value_text, s.value_text]
    exact Spelling.number_leading_zeros hbase hdigits hlimit

/-- Behind the mark of base 16 what looks like a floating-point type are digits, with a type or with
zeros in front as without; behind a decimal literal it is that type. -/
theorem integer_literals_read_typed :
    ∃ typed padded decimal : Spelling,
      typed.text = Text.ofString "0x1_f32_u8" ∧ padded.text = Text.ofString "0x00_1F32" ∧
      decimal.text = Text.ofString "1_" ∧ value? typed.text = some 0x1f32 ∧
      value? padded.text = value? typed.text ∧
      value? (decimal.text ++ Text.ofString "f32") = none := by
  let typed : Spelling :=
    ⟨.hexadecimal, "1_f32_".toList, "u8", by decide, ⟨'1', by decide⟩, nofun, by decide⟩
  let padded : Spelling :=
    ⟨.hexadecimal, "00_1F32".toList, "", by decide, ⟨'0', by decide⟩, nofun, by decide⟩
  let decimal : Spelling :=
    ⟨.decimal, "1_".toList, "", by decide, ⟨'1', by decide⟩, by decide, by decide⟩
  obtain ⟨hvalue, _, hzeros, _⟩ := integer_literals_read typed
  have hnumber : Nat.ofDigits 16 typed.digits.reverse = 0x1f32 := by decide
  refine ⟨typed, padded, decimal, by decide, by decide, by decide, ?_, ?_, ?_⟩
  · rw [hvalue, if_neg (fun h => nomatch h.1)]
    exact congrArg (fun n : Nat => some (n : Int)) hnumber
  · exact hzeros padded 2 rfl (by decide) nofun
  · exact (integer_literals_read decimal).2.2.2 rfl rfl "f32" (by decide)

end IntegerLiteral

end ProgramInterface
