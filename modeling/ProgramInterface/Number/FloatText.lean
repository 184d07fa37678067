import ProgramInterface.Number.Binary64
import ProgramInterface.Number.IntegerText

/-!
# Floating-point numbers as text

Reading a decimal number with or without a point and an exponent, or one of the words for infinity
and for what is no number. White space around the number and single underscores between digits are
allowed.
-/

namespace ProgramInterface

namespace FloatText

/-- A plain decimal digit. -/
def isDigit (c : Char) : Bool :=
  '0' ≤ c && c ≤ '9'

/-- The number that a run of digits denotes. -/
def digitsValue (digits : List Char) : Nat :=
  digits.foldl (fun n c => n * 10 + (c.toNat - '0'.toNat)) 0

/-- Whether every underscore of a text stands between two digits. -/
def hasLoneUnderscores (previous : Option Char) : List Char → Bool
  | [] => true
  | c :: rest =>
    (c ≠ '_' || (previous.any isDigit && rest.head?.any isDigit)) &&
      hasLoneUnderscores (some c) rest

/-- The exponent that a text is: empty, or a letter, perhaps a sign, and digits. -/
def exponent? : List Char → Option Int
  | [] => some 0
  | mark :: rest =>
    if mark = 'e' ∨ mark = 'E' then
      let (negative, digits) := IntegerText.splitSign rest
      if digits.isEmpty ∨ !digits.all isDigit then none
      else
        let size : Int := digitsValue digits
        some (if negative then -size else size)
    else none

/-- The number that a text without a sign denotes. -/
def unsigned? (negative : Bool) (text : List Char) : Option Binary64 :=
  let word := text.map Char.toLower
  if word = "inf".toList ∨ word = "infinity".toList then some (.infinite negative)
  else if word = "nan".toList then some .nan
  else
    let whole := text.takeWhile isDigit
    let (places, rest) :=
      match text.drop whole.length with
      | '.' :: rest => (rest.takeWhile isDigit, rest.dropWhile isDigit)
      | rest => ([], rest)
    if whole.isEmpty ∧ places.isEmpty then none
    else
      (exponent? rest).map fun exponent =>
        Binary64.ofDecimal negative (digitsValue (whole ++ places)) (exponent - places.length)

/-- The number that a text denotes. -/
def read? (t : Text) : Option Binary64 :=
  let chars := t.map IntegerText.plain
  let inner := ((chars.dropWhile IntegerText.isGap).reverse.dropWhile IntegerText.isGap).reverse
  if !hasLoneUnderscores none inner then none
  else
    let (negative, digits) := IntegerText.splitSign (inner.filter (· ≠ '_'))
    unsigned? negative digits

end FloatText

end ProgramInterface
