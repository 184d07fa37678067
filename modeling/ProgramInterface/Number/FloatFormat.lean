import ProgramInterface.Number.Binary64

/-!
# Floating-point numbers with a given number of digits

A number is written with a fixed number of digits behind the point, with one digit in front of the
point and an exponent, or in the shorter one of these two ways for a given number of significant
digits. The exact value is rounded to the nearest such form, a tie to the even digit.
-/

namespace ProgramInterface

namespace Binary64

/-- The way in which a number is written. -/
inductive Form where
  | fixed
  | scientific
  | general
  deriving DecidableEq

/-- Digits with a point in front of the last `places` of them, which is left out if nothing follows
it and it is not kept. -/
def pointed (places : Nat) (keepPoint : Bool) (digits : List Char) : List Char :=
  let all := List.replicate (places + 1 - digits.length) '0' ++ digits
  let whole := all.take (all.length - places)
  let fraction := all.drop (all.length - places)
  if fraction.isEmpty && !keepPoint then whole else whole ++ '.' :: fraction

/-- A number with `places` digits behind the point. -/
def writeFixed (places : Nat) (keepPoint : Bool) (mantissa : Nat) (exponent : Int) : List Char :=
  pointed places keepPoint (Nat.toDigits 10 (nearestDecimal mantissa exponent (-places)))

/-- The first `places + 1` significant digits of a number and the exponent of ten of the first
one. -/
def significant (places : Nat) (mantissa : Nat) (exponent : Int) : Nat × Int :=
  if mantissa = 0 then (0, 0)
  else
    let order := decimalOrder mantissa exponent
    let digits := nearestDecimal mantissa exponent (order - places - 1)
    if digits < Nat.pow 10 (places + 1) then (digits, order - 1) else (digits / 10, order)

/-- An exponent with its sign and at least two digits. -/
def writeExponent (exponent : Int) : List Char :=
  let places := Nat.toDigits 10 exponent.natAbs
  'e' :: (if exponent < 0 then '-' else '+') :: List.replicate (2 - places.length) '0' ++ places

/-- A number with one digit in front of the point, `places` behind it, and an exponent. -/
def writeScientific (places : Nat) (keepPoint : Bool) (mantissa : Nat) (exponent : Int) :
    List Char :=
  let (digits, power) := significant places mantissa exponent
  pointed places keepPoint (Nat.toDigits 10 digits) ++ writeExponent power

/-- Digits with a point among them without the zeros at their end. -/
def dropFractionZeros (text : List Char) : List Char :=
  if text.contains '.' then
    let kept := (text.reverse.dropWhile (· = '0')).reverse
    if kept.getLast? = some '.' then kept.dropLast else kept
  else text

/-- A number with `count` significant digits, in the shorter way. Zeros at the end of the digits are
kept only if the point is. -/
def writeGeneral (count : Nat) (keepPoint : Bool) (mantissa : Nat) (exponent : Int) : List Char :=
  let places := count - 1
  let (digits, power) := significant places mantissa exponent
  let tidy (text : List Char) : List Char := if keepPoint then text else dropFractionZeros text
  if -4 ≤ power ∧ power ≤ places then
    tidy (writeFixed (places - power).toNat keepPoint mantissa exponent)
  else
    tidy (pointed places keepPoint (Nat.toDigits 10 digits)) ++ writeExponent power

/-- A number in one of the ways with a given precision. -/
def format (way : Form) (precision : Nat) (keepPoint : Bool) : Binary64 → List Char
  | finite negative mantissa exponent =>
    let body :=
      match way with
      | .fixed => writeFixed precision keepPoint mantissa exponent
      | .scientific => writeScientific precision keepPoint mantissa exponent
      | .general => writeGeneral (max precision 1) keepPoint mantissa exponent
    if negative then '-' :: body else body
  | infinite negative => if negative then "-inf".toList else "inf".toList
  | nan => "nan".toList

end Binary64

end ProgramInterface
