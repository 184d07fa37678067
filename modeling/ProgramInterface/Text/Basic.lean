/-!
# Code points and texts

A text is a finite sequence of Unicode code points. Unlike a `String` it may hold a surrogate that
stands alone, which escape sequences and raw inputs can produce. Every `String` is a text
(`Text.ofString`), and a text without surrogates comes back as the string it was
(`Text.toString?_ofString`).
-/

namespace ProgramInterface

/-- A Unicode code point: a scalar value, or the surrogate `0xD800 + index` standing alone. -/
inductive CodePoint where
  | scalar (char : Char)
  | surrogate (index : Fin 0x800)
  deriving DecidableEq, Inhabited

namespace CodePoint

/-- The number of a code point. -/
def val : CodePoint → Nat
  | scalar c => c.toNat
  | surrogate i => 0xD800 + i.val

/-- The code point with a given number, if there is one. -/
def ofNat? (n : Nat) : Option CodePoint :=
  if h : n.isValidChar then some (scalar (Char.ofNatAux n h))
  else if h : 0xD800 ≤ n ∧ n < 0xE000 then some (surrogate ⟨n - 0xD800, by omega⟩)
  else none

/-- The scalar value that a code point is, if it is one. -/
def char? : CodePoint → Option Char
  | scalar c => some c
  | surrogate _ => none

/-- Whether a code point is a surrogate. -/
def isSurrogate : CodePoint → Bool
  | scalar _ => false
  | surrogate _ => true

end CodePoint

/-- What all characters of a list are is decided on the list, not on all the characters there are. -/
instance decidableAllChars {p : Char → Prop} [DecidablePred p] (chars : List Char) :
    Decidable (∀ c ∈ chars, p c) :=
  List.decidableBAll p chars

/-- A sequence of code points, lone surrogates included. -/
abbrev Text := List CodePoint

namespace Text

/-- The text of a list of scalar values. -/
def ofChars (chars : List Char) : Text :=
  chars.map .scalar

/-- The text that a string is. -/
def ofString (s : String) : Text :=
  ofChars s.toList

instance : Coe String Text := ⟨ofString⟩

instance : HAppend String Text Text := ⟨fun s t => ofString s ++ t⟩

instance : HAppend Text String Text := ⟨fun t s => t ++ ofString s⟩

/-- Whether a text comes no later than another in the order of their code points. -/
def precedes (s t : Text) : Bool :=
  !(t.map CodePoint.val).lex (s.map CodePoint.val) Nat.blt

/-- The scalar values of a text without surrogates. -/
def toChars? (t : Text) : Option (List Char) :=
  if t.any CodePoint.isSurrogate then none else some (t.filterMap CodePoint.char?)

/-- The string that a text is, if it holds no surrogate. -/
def toString? (t : Text) : Option String :=
  (toChars? t).map String.ofList

/-- A text without surrogates. -/
def WellFormed (t : Text) : Prop :=
  ∀ c ∈ t, c.isSurrogate = false

instance (t : Text) : Decidable (WellFormed t) :=
  inferInstanceAs (Decidable (∀ c ∈ t, c.isSurrogate = false))

@[simp]
theorem toChars?_ofChars (chars : List Char) : toChars? (ofChars chars) = some chars := by
  have hplain : (ofChars chars).any CodePoint.isSurrogate = false := by
    simp [ofChars, CodePoint.isSurrogate]
  have hchars : (ofChars chars).filterMap CodePoint.char? = chars := by
    simp [ofChars, List.filterMap_map, Function.comp_def, CodePoint.char?]
  simp [toChars?, hplain, hchars]

@[simp]
theorem toString?_ofString (s : String) : toString? (ofString s) = some s := by
  simp [toString?, ofString]

/-- Whether a list occurs in another as a run of neighbours. -/
def occursIn {α : Type} [BEq α] (needle : List α) : List α → Bool
  | [] => needle.isEmpty
  | hay@(_ :: rest) => needle.isPrefixOf hay || occursIn needle rest

/-- The part of a text before a given ending. -/
def dropEnd? (ending : Text) (t : Text) : Option Text :=
  if ending.isSuffixOf t then some (t.take (t.length - ending.length)) else none

/-- Texts put one after the other with a separator between neighbours. -/
def joinWith (separator : Text) : List Text → Text
  | [] => []
  | [t] => t
  | t :: rest => t ++ separator ++ joinWith separator rest

/-- The decimal digits of a natural number. -/
def ofNat (n : Nat) : Text :=
  ofChars (Nat.toDigits 10 n)

/-- The decimal digits of an integer, after a minus sign if it is negative. -/
def ofInt : Int → Text
  | .ofNat n => ofNat n
  | .negSucc n => .scalar '-' :: ofNat (n + 1)

/-- A natural number in hexadecimal, filled with zeros to a least width. -/
def hexadecimal (width n : Nat) : List Char :=
  let digits := Nat.toDigits 16 n
  List.replicate (width - digits.length) '0' ++ digits

/-- A text filled with a character on the left to a least width. -/
def padLeft (width : Nat) (fill : Char) (t : Text) : Text :=
  List.replicate (width - t.length) (.scalar fill) ++ t

end Text

end ProgramInterface
