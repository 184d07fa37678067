import ProgramInterface.Text.Basic

/-!
# Binary floating-point numbers of double width

Numbers are kept exactly, as a sign, a mantissa and a power of two, and are rounded to the nearest
such number with ties to the even mantissa. The decimal form of a number has the fewest digits that
read back as the number, and of several such forms the nearest one.
-/

namespace ProgramInterface

/-- A number of double width: a finite one stands for `± mantissa * 2 ^ exponent`. -/
inductive Binary64 where
  | finite (negative : Bool) (mantissa : Nat) (exponent : Int)
  | infinite (negative : Bool)
  | nan
  deriving DecidableEq, Inhabited

namespace Binary64

/-- The least exponent of a finite number. -/
def leastExponent : Int := -1074

/-- The number of bits of a full mantissa. -/
def mantissaBits : Nat := 53

/-- The greatest exponent of a finite number with a full mantissa. -/
def greatestExponent : Int := 971

/-- The quotient of two numbers rounded to the nearest integer, a tie to the even one. -/
def roundQuotient (num den : Nat) : Nat :=
  let q := num / den
  let twice := 2 * (num % den)
  if twice < den ∨ (twice = den ∧ q % 2 = 0) then q else q + 1

/-- A fraction times a power of two, as a fraction. -/
def scaleBinary (num den : Nat) (exponent : Int) : Nat × Nat :=
  if 0 ≤ exponent then (num * Nat.pow 2 exponent.toNat, den)
  else (num, den * Nat.pow 2 (-exponent).toNat)

/-- The number nearest to the fraction `num / den`. -/
def ofFraction (negative : Bool) (num den : Nat) : Binary64 :=
  if num = 0 then finite negative 0 leastExponent
  else
    let rough : Int := (num.log2 : Int) - den.log2 - mantissaBits
    let exponent := max rough leastExponent
    let (scaledNum, scaledDen) := scaleBinary num den (-exponent)
    let full := Nat.pow 2 mantissaBits
    let (mantissa, exponent) :=
      if scaledNum < full * scaledDen then (roundQuotient scaledNum scaledDen, exponent)
      else (roundQuotient scaledNum (2 * scaledDen), exponent + 1)
    let (mantissa, exponent) :=
      if mantissa = full then (full / 2, exponent + 1) else (mantissa, exponent)
    if exponent > greatestExponent then infinite negative else finite negative mantissa exponent

/-- The number nearest to `digits * 10 ^ exponent`. -/
def ofDecimal (negative : Bool) (digits : Nat) (exponent : Int) : Binary64 :=
  let order : Int := (Nat.toDigits 10 digits).length + exponent
  if digits = 0 ∨ order < -400 then finite negative 0 leastExponent
  else if order > 400 then infinite negative
  else if 0 ≤ exponent then ofFraction negative (digits * Nat.pow 10 exponent.toNat) 1
  else ofFraction negative digits (Nat.pow 10 (-exponent).toNat)

/-- The number nearest to an integer. -/
def ofInt (n : Int) : Binary64 :=
  ofFraction (n < 0) n.natAbs 1

/-- The integer part of a finite number, rounded towards zero. -/
def truncate? : Binary64 → Option Int
  | finite negative mantissa exponent =>
    let magnitude : Nat :=
      if 0 ≤ exponent then mantissa * Nat.pow 2 exponent.toNat
      else mantissa / Nat.pow 2 (-exponent).toNat
    some (if negative then -magnitude else magnitude)
  | _ => none

/-- Whether a number is finite and an integer. -/
def isIntegral : Binary64 → Bool
  | finite _ mantissa exponent => 0 ≤ exponent || mantissa % Nat.pow 2 (-exponent).toNat = 0
  | _ => false

/-- Whether a number is zero. -/
def isZero : Binary64 → Bool
  | finite _ 0 _ => true
  | _ => false

/-- The magnitude of a finite number as a fraction. -/
def magnitude (mantissa : Nat) (exponent : Int) : Nat × Nat :=
  scaleBinary mantissa 1 exponent

/-- The numerator of a fraction with its sign. -/
def signed (negative : Bool) (num : Nat) : Int :=
  if negative then -num else num

/-- The sum of two numbers. -/
def add : Binary64 → Binary64 → Binary64
  | nan, _ => nan
  | _, nan => nan
  | infinite s, infinite t => if s = t then infinite s else nan
  | infinite s, _ => infinite s
  | _, infinite t => infinite t
  | finite s m e, finite t n f =>
    let (a, b) := magnitude m e
    let (c, d) := magnitude n f
    let sum := signed s (a * d) + signed t (c * b)
    if sum = 0 then finite (s && t) 0 leastExponent else ofFraction (sum < 0) sum.natAbs (b * d)

/-- The product of two numbers. -/
def mul : Binary64 → Binary64 → Binary64
  | nan, _ => nan
  | _, nan => nan
  | infinite s, infinite t => infinite (s != t)
  | infinite s, finite t n _ => if n = 0 then nan else infinite (s != t)
  | finite s m _, infinite t => if m = 0 then nan else infinite (s != t)
  | finite s m e, finite t n f =>
    let (a, b) := magnitude m e
    let (c, d) := magnitude n f
    ofFraction (s != t) (a * c) (b * d)

/-- The decimal form `digits * 10 ^ exponent` of a finite positive number with a given exponent that
is nearest to it. -/
def nearestDecimal (mantissa : Nat) (exponent : Int) (decimalExponent : Int) : Nat :=
  let (num, den) := magnitude mantissa exponent
  if 0 ≤ decimalExponent then roundQuotient num (den * Nat.pow 10 decimalExponent.toNat)
  else roundQuotient (num * Nat.pow 10 (-decimalExponent).toNat) den

/-- The exponent of ten just above a finite positive number: the number lies below that power of ten
and not below a tenth of it. -/
def decimalOrder (mantissa : Nat) (exponent : Int) : Int :=
  let (num, den) := magnitude mantissa exponent
  if den ≤ num then ((Nat.toDigits 10 (num / den)).length : Int)
  else 1 - ((Nat.toDigits 10 ((den + num - 1) / num - 1)).length : Int)

/-- The least decimal form with at least `digits` digits that reads back, trying at most `fuel`
lengths. -/
def shortestFrom (mantissa : Nat) (exponent order : Int) (digits : Nat) : Nat → Nat × Int
  | 0 => (mantissa, exponent)
  | fuel + 1 =>
    let decimalExponent := order - digits
    let candidate := nearestDecimal mantissa exponent decimalExponent
    if ofDecimal false candidate decimalExponent = finite false mantissa exponent then
      (candidate, decimalExponent)
    else shortestFrom mantissa exponent order (digits + 1) fuel

/-- The shortest decimal form `digits * 10 ^ exponent` that reads back as a finite positive
number. -/
def shortest (mantissa : Nat) (exponent : Int) : Nat × Int :=
  shortestFrom mantissa exponent (decimalOrder mantissa exponent) 1 17

/-- How the decimal form of a number is laid out: positional when the point falls at most `high`
places to the right of the first digit and at most `low` zeros follow it in front of the digits. -/
structure Layout where
  high : Int
  low : Int
  exponentWidth : Nat

/-- Up to sixteen digits stand in front of the point, up to three zeros behind it, and an exponent
has at least two digits. -/
def layout : Layout := ⟨16, 3, 2⟩

/-- The digits of a positive number laid out with the point after `point` of them. -/
def layOut (digits : List Char) (point : Int) : List Char :=
  if point > layout.high ∨ point ≤ -layout.low - 1 then
    let exponent := point - 1
    let mark := if exponent < 0 then '-' else '+'
    let places := Nat.toDigits 10 exponent.natAbs
    let padded := List.replicate (layout.exponentWidth - places.length) '0' ++ places
    let fraction :=
      match digits.drop 1 with
      | [] => []
      | rest => '.' :: rest
    digits.take 1 ++ fraction ++ 'e' :: mark :: padded
  else if point ≤ 0 then
    '0' :: '.' :: List.replicate (-point).toNat '0' ++ digits
  else
    let whole := digits.take point.toNat
    let zeros := List.replicate (point.toNat - whole.length) '0'
    let fraction :=
      match digits.drop point.toNat with
      | [] => ['0']
      | rest => rest
    whole ++ zeros ++ '.' :: fraction

/-- The digits of a number without the zeros at its end, and how many were dropped. -/
def dropZeros (digits : List Char) : List Char × Nat :=
  let kept := (digits.reverse.dropWhile (· = '0')).reverse
  (kept, digits.length - kept.length)

/-- The decimal form of a number. -/
def display : Binary64 → String
  | finite negative mantissa exponent =>
    let body :=
      if mantissa = 0 then ['0', '.', '0']
      else
        let (digits, decimalExponent) := shortest mantissa exponent
        let all := Nat.toDigits 10 digits
        let (kept, _) := dropZeros all
        layOut kept (all.length + decimalExponent)
    String.ofList (if negative then '-' :: body else body)
  | infinite negative => if negative then "-inf" else "inf"
  | nan => "nan"

end Binary64

end ProgramInterface
