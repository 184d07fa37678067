import ProgramInterface.Json.Reader
import ProgramInterface.Schema.Fault
import ProgramInterface.Text.Class

/-!
# Checking scalars

Texts, words, integers and truth values. Integers are also taken from truth values, from
floating-point numbers without a fraction and from texts; truth values from zero, one and a few
words.
-/

namespace ProgramInterface

namespace Schema

/-- A value that fits, in its normal form, or the faults of one that does not. -/
abbrev Checked := Except (List Fault) Json.Value

/-- A value with a single fault. -/
def reject {α : Type} (cause : Cause) : Except (List Fault) α :=
  .error [.ofCause cause]

/-- A text of a least and perhaps a greatest length. -/
def checkText (least : Nat) (most : Option Nat) (value : Json.Value) : Checked :=
  match value with
  | .text t =>
    if least = 0 ∧ most = none then .ok value
    else if t.any CodePoint.isSurrogate then reject .notUnicode
    else if t.length < least then reject (.tooShort least)
    else
      match most with
      | some most => if most < t.length then reject (.tooLong most) else .ok value
      | none => .ok value
  | _ => reject .notText

/-- One of some words. -/
def checkWord (choices : List String) (value : Json.Value) : Checked :=
  match value with
  | .text t =>
    if choices.any fun w => Text.ofString w == t then .ok value
    else if t.any CodePoint.isSurrogate then reject .notUnicode
    else reject (.notWord choices)
  | _ => reject (.notWord choices)

/-! ## Integers -/

/-- The numbers of 64 bits with a sign. -/
def isWide (n : Int) : Bool :=
  -(Nat.pow 2 63 : Int) ≤ n && n < Nat.pow 2 63

/-- The integer that a floating-point number is. -/
def integerOfFloat (x : Binary64) : Except Cause Int :=
  match x.truncate? with
  | none => .error .notFinite
  | some n =>
    if !x.isIntegral then .error .fraction
    else if isWide n then .ok n
    else .error .integerTooLong

/-- The last code point of a text of leading zeros, as far as it was read. -/
def lastOf (t : Text) (read : Nat) : Text :=
  t.drop (read - 1)

/-- The rest of a text of digits behind its leading zeros, of which `read` code points were read; one
zero is kept where no other digit follows. -/
def dropZerosFrom (t : Text) (read : Nat) : Text → Option Text
  | [] => some (lastOf t read)
  | c :: rest =>
    if c = .scalar '0' ∨ c = .scalar '_' then dropZerosFrom t (read + 1) rest
    else if Json.isDigit c then some (c :: rest)
    else if c = .scalar '.' then some (lastOf t read)
    else none

/-- A text of digits without its leading zeros; nothing, if it begins with neither a digit nor a minus
sign. -/
def dropZeros? : Text → Option Text
  | [] => none
  | c :: rest =>
    if c = .scalar '0' then dropZerosFrom (c :: rest) 1 rest
    else if Json.isDigit c ∨ c = .scalar '-' then some (c :: rest)
    else none

/-- A text without a point that only zeros follow. -/
def dropFraction (t : Text) : Text :=
  match t.span (· ≠ .scalar '.') with
  | (whole, _ :: places) => if places.all (· = .scalar '0') then whole else t
  | (_, []) => t

/-- A text without its underscores, if each of them stands alone between other characters. -/
def dropUnderscores (t : Text) : Text :=
  let mark : CodePoint := .scalar '_'
  if t.head? = some mark ∨ t.getLast? = some mark ∨ Text.occursIn [mark, mark] t then t
  else t.filter (· ≠ mark)

/-- A text without white space around it. -/
def trim (t : Text) : Text :=
  ((t.dropWhile CodePoint.isSpace).reverse.dropWhile CodePoint.isSpace).reverse

/-- A text without a plus sign at its beginning, which no minus sign may follow. -/
def dropPlus? : Text → Option Text
  | .scalar '+' :: .scalar '-' :: _ => none
  | .scalar '+' :: rest => some rest
  | t => some t

/-- The integer that a text shows. -/
def integerOfText (t : Text) : Except Cause Int :=
  match (dropPlus? (trim t)).bind dropZeros? with
  | none => .error .unreadInteger
  | some digits =>
    let digits := dropUnderscores (dropFraction digits)
    if IntegerText.decimalLimit < digits.length then .error .integerTooLong
    else
      match Json.read .strict digits with
      | .ok (.int n) =>
        if digits.all fun c => Json.isDigit c || c = .scalar '-' then .ok n
        else .error .unreadInteger
      | _ => .error .unreadInteger

/-- The integer that a value stands for. -/
def integerOf : Json.Value → Except Cause Int
  | .int n => .ok n
  | .bool b => .ok (if b then 1 else 0)
  | .float x => integerOfFloat x
  | .text t => integerOfText t
  | _ => .error .notInteger

/-- An integer. -/
def checkInteger (value : Json.Value) : Checked :=
  match integerOf value with
  | .ok n => .ok (.int n)
  | .error cause => reject cause

/-! ## Truth values -/

/-- The words for false. -/
def falseWords : List String :=
  ["0", "off", "f", "false", "n", "no"]

/-- The words for true. -/
def trueWords : List String :=
  ["1", "on", "t", "true", "y", "yes"]

/-- A text with its plain letters in lower case. -/
def plainLower (t : Text) : Text :=
  t.map fun c =>
    match c with
    | .scalar char => .scalar char.toLower
    | c => c

/-- The truth value that an integer stands for. -/
def truthOfInt (n : Int) : Except Cause Bool :=
  if n = 0 then .ok false else if n = 1 then .ok true else .error .unreadTruth

/-- The truth value that a text stands for. -/
def truthOfText (t : Text) : Except Cause Bool :=
  let isOneOf (words : List String) : Bool := words.any fun w => Text.ofString w == plainLower t
  if isOneOf falseWords then .ok false
  else if isOneOf trueWords then .ok true
  else .error .unreadTruth

/-- The truth value that a value stands for. -/
def truthOf : Json.Value → Except Cause Bool
  | .bool b => .ok b
  | .int n => if isWide n then truthOfInt n else .error .notTruth
  | .float x =>
    match integerOfFloat x with
    | .ok n => truthOfInt n
    | .error _ => .error .notTruth
  | .text t => truthOfText t
  | _ => .error .notTruth

/-- A truth value. -/
def checkTruth (value : Json.Value) : Checked :=
  match truthOf value with
  | .ok b => .ok (.bool b)
  | .error cause => reject cause

end Schema

end ProgramInterface
