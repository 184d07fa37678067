import ProgramInterface.Text.Quoted

/-!
# Integers as text

Reading an integer in base 2, 8, 10 or 16: white space around it, one sign, and single underscores
between digits are allowed, and the decimal digits of every script count. Decimal texts of more than
`decimalLimit` digits are refused in both directions; the other bases have no limit.
-/

namespace ProgramInterface

namespace IntegerText

/-- The greatest number of decimal digits that are read or written. -/
def decimalLimit : Nat := 4300

/-- Why a text is not read as an integer. -/
inductive Fault where
  | malformed
  | tooLong (digits : Nat)
  deriving DecidableEq

/-- The characters that reading looks at: a white space or digit of any script stands for the plain
one, and every other code point beyond the plain ones for a question mark. -/
def plain (c : CodePoint) : Char :=
  match c with
  | .scalar char =>
    if char.toNat < 0x7F then char
    else if c.isBlank then ' '
    else
      match c.digit? with
      | some d => Nat.digitChar d
      | none => '?'
  | .surrogate _ => '?'

/-- White space around a number. -/
def isGap (c : Char) : Bool :=
  c = ' ' || ('\t' ≤ c && c ≤ '\r')

/-- The value of a digit in any base up to 36. -/
def digitValue? (c : Char) : Option Nat :=
  if '0' ≤ c ∧ c ≤ '9' then some (c.toNat - '0'.toNat)
  else if 'a' ≤ c ∧ c ≤ 'z' then some (c.toNat - 'a'.toNat + 10)
  else if 'A' ≤ c ∧ c ≤ 'Z' then some (c.toNat - 'A'.toNat + 10)
  else none

/-- The value of a digit of a base. -/
def digitIn? (base : Nat) (c : Char) : Option Nat :=
  (digitValue? c).filter (· < base)

/-- The letter that may stand after a zero in front of the digits of a base. -/
def baseLetter? : Nat → Option Char
  | 2 => some 'b'
  | 8 => some 'o'
  | 16 => some 'x'
  | _ => none

/-- A sign at the head of a text; without one the number is not negative. -/
def splitSign : List Char → Bool × List Char
  | '+' :: rest => (false, rest)
  | '-' :: rest => (true, rest)
  | rest => (false, rest)

/-- The text after the mark of a base and one underscore that may follow the mark. -/
def dropMark (base : Nat) (text : List Char) : List Char :=
  match text with
  | '0' :: letter :: rest =>
    if baseLetter? base = some letter.toLower then
      match rest with
      | '_' :: rest => rest
      | rest => rest
    else text
  | _ => text

/-- The values of a run of digits with single underscores between them, and the text after it.
`afterDigit` says whether a digit came just before. -/
def digitRun (base : Nat) (afterDigit : Bool) (done : List Nat) :
    List Char → Except Fault (List Nat × List Char)
  | [] => if afterDigit then .ok (done.reverse, []) else .error .malformed
  | c :: rest =>
    match digitIn? base c with
    | some d => digitRun base true (d :: done) rest
    | none =>
      if c = '_' then
        if afterDigit then digitRun base false done rest else .error .malformed
      else if afterDigit then .ok (done.reverse, c :: rest) else .error .malformed

/-- The number that a sequence of digits denotes in a base. -/
def ofDigits (base : Nat) (digits : List Nat) : Nat :=
  digits.foldl (fun value d => value * base + d) 0

/-- The integer that a list of characters denotes in a base. -/
def readChars (base : Nat) (chars : List Char) : Except Fault Int := do
  let (negative, chars) := splitSign (chars.dropWhile isGap)
  let (digits, rest) ← digitRun base false [] (dropMark base chars)
  if base = 10 ∧ decimalLimit < digits.length then
    throw (.tooLong digits.length)
  if rest.all isGap then
    let magnitude : Int := ofDigits base digits
    return if negative then -magnitude else magnitude
  else throw .malformed

/-- The integer that a text denotes in a base. -/
def read (base : Nat) (t : Text) : Except Fault Int :=
  readChars base (t.map plain)

/-- The least natural number with too many decimal digits to be written. -/
def decimalBound : Nat := Nat.pow 10 decimalLimit

/-- Whether an integer has few enough decimal digits to be written. -/
def fits (n : Int) : Bool :=
  n.natAbs < decimalBound

/-- The wording of the limit on decimal digits. -/
def limitMessage : String :=
  "Exceeds the limit (" ++ toString decimalLimit ++ " digits) for integer string conversion"

/-- The advice that follows the limit. -/
def limitAdvice : String :=
  "; use sys.set_int_max_str_digits() to increase the limit"

/-- The wording of the refusal to write an integer. -/
def writeFaultMessage : String :=
  limitMessage ++ limitAdvice

/-- The wording of a reading fault in a base, given the quoted form of what is read; long forms are
cut. -/
def Fault.messageFor (base : Nat) (quoted : Text) : Fault → Text
  | malformed =>
    "invalid literal for int() with base " ++ Text.ofNat base ++ Text.ofString ": " ++
      quoted.take 200
  | tooLong digits =>
    Text.ofString (limitMessage ++ ": value has " ++ toString digits ++ " digits" ++ limitAdvice)

/-- The wording of a reading fault of a text in a base. -/
def Fault.message (base : Nat) (t : Text) (fault : Fault) : Text :=
  fault.messageFor base t.quoted

end IntegerText

end ProgramInterface
