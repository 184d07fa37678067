import ProgramInterface.Number.IntegerText

/-!
# Tags of plain scalars

What a scalar without quotes and without a tag of its own means: a null, a truth value, a number, a
time, the sign for merging or for a default value, or else a text.
-/

namespace ProgramInterface

namespace Yaml

/-- What a node means. -/
inductive Tag where
  | null
  | bool
  | int
  | float
  | binary
  | timestamp
  | omap
  | pairs
  | set
  | str
  | seq
  | map
  | merge
  | value
  | other (name : Text)
  deriving DecidableEq

namespace Tag

/-- What the names of the standard tags begin with. -/
def standardStart : Text :=
  "tag:yaml.org,2002:"

/-- The standard tags with the ends of their names. -/
def standard : List (String × Tag) :=
  [("null", null), ("bool", bool), ("int", int), ("float", float), ("binary", binary),
    ("timestamp", timestamp), ("omap", omap), ("pairs", pairs), ("set", set), ("str", str),
    ("seq", seq), ("map", map), ("merge", merge), ("value", value)]

/-- The tag with a given name. -/
def ofName (name : Text) : Tag :=
  match standard.find? fun entry => standardStart ++ entry.1 == name with
  | some (_, tag) => tag
  | none => other name

end Tag

/-- The digits of a base up to ten. -/
def isDigitBelow (base : Nat) (c : Char) : Bool :=
  '0' ≤ c && c.toNat < '0'.toNat + base

/-- A digit of a base up to ten or an underscore. -/
def isPlaceBelow (base : Nat) (c : Char) : Bool :=
  c = '_' || isDigitBelow base c

/-- A hexadecimal digit or an underscore. -/
def isHexPlace (c : Char) : Bool :=
  c = '_' || (IntegerText.digitIn? 16 c).isSome

/-- A text without a sign at its beginning. -/
def dropSign : List Char → List Char
  | '-' :: rest => rest
  | '+' :: rest => rest
  | rest => rest

/-- Whether a text is empty or an exponent with a sign and digits. -/
def isExponent : List Char → Bool
  | [] => true
  | mark :: sign :: digits =>
    (mark = 'e' || mark = 'E') && (sign = '-' || sign = '+') && !digits.isEmpty &&
      digits.all (isDigitBelow 10)
  | _ => false

/-- The text behind groups of one or two digits, each behind a colon and below sixty; nothing, if there
is no such group. -/
def dropSixties (found : Bool) : List Char → Option (List Char)
  | ':' :: a :: b :: rest =>
    if isDigitBelow 6 a ∧ isDigitBelow 10 b then dropSixties true rest
    else if isDigitBelow 10 a then dropSixties true (b :: rest)
    else if found then some (':' :: a :: b :: rest) else none
  | [':', a] =>
    if isDigitBelow 10 a then some [] else if found then some [':', a] else none
  | rest => if found then some rest else none
termination_by text => text.length

/-- Whether a text is the decimal form of an integer, as far as its places go: it begins with a digit,
not with a zero unless that is all. -/
def isDecimalPlaces (text : List Char) : Bool :=
  match text with
  | ['0'] => true
  | c :: rest => isDigitBelow 10 c && c ≠ '0' && rest.all (isPlaceBelow 10)
  | [] => false

/-- Whether a plain scalar is an integer. -/
def isInteger (text : List Char) : Bool :=
  match dropSign text with
  | '0' :: 'b' :: places => !places.isEmpty && places.all (isPlaceBelow 2)
  | '0' :: 'x' :: places => !places.isEmpty && places.all isHexPlace
  | '0' :: c :: places => (c :: places).all (isPlaceBelow 8)
  | digits =>
    isDecimalPlaces digits ||
      let whole := digits.takeWhile (isPlaceBelow 10)
      isDecimalPlaces whole && whole ≠ ['0'] &&
        (dropSixties false (digits.drop whole.length)) == some []

/-- Whether a text is a number with a point, its whole part not empty. -/
def isPointed (text : List Char) : Bool :=
  let whole := text.takeWhile (isPlaceBelow 10)
  whole.head?.any (isDigitBelow 10) &&
    match text.drop whole.length with
    | '.' :: places => isExponent (places.dropWhile (isPlaceBelow 10))
    | rest =>
      match dropSixties false rest with
      | some ('.' :: places) => places.all (isPlaceBelow 10)
      | _ => false

/-- The spellings of an infinite number behind its point. -/
def infiniteWords : List (List Char) :=
  ["inf", "Inf", "INF"].map String.toList

/-- The spellings of what is no number behind its point. -/
def undefinedWords : List (List Char) :=
  ["nan", "NaN", "NAN"].map String.toList

/-- Whether a plain scalar is a floating-point number. -/
def isFloating (text : List Char) : Bool :=
  isPointed (dropSign text) ||
    (match dropSign text with
    | '.' :: word => infiniteWords.contains word
    | _ => false) ||
    match text with
    | '.' :: c :: places =>
      (isDigitBelow 10 c && isExponent (places.dropWhile (isPlaceBelow 10))) ||
        undefinedWords.contains (c :: places)
    | _ => false

/-- The spellings of truth values. -/
def truthWords : List (List Char) :=
  ["yes", "Yes", "YES", "no", "No", "NO", "true", "True", "TRUE", "false", "False", "FALSE", "on",
    "On", "ON", "off", "Off", "OFF"].map String.toList

/-- The spellings of null. -/
def nullWords : List (List Char) :=
  ["", "~", "null", "Null", "NULL"].map String.toList

/-! ## Times -/

/-- A time as it is written: a date, and perhaps a time of day with a fraction of a second and a zone,
which is a sign with hours and minutes. -/
structure TimeParts where
  year : Nat
  month : Nat
  day : Nat
  clock : Option (Nat × Nat × Nat × List Nat)
  zone : Option (Bool × Nat × Nat)

/-- A number of at least `least` and at most `most` digits at the head of a text, and the rest. -/
def number? (least most : Nat) (text : List Char) : Option (Nat × List Char) :=
  let digits := (text.take most).takeWhile (isDigitBelow 10)
  if least ≤ digits.length then
    some (IntegerText.ofDigits 10 (digits.filterMap IntegerText.digitValue?),
      text.drop digits.length)
  else none

/-- The text behind a character that it must begin with. -/
def expect? (c : Char) : List Char → Option (List Char)
  | first :: rest => if first = c then some rest else none
  | [] => none

/-- Whether a character is a space or a tab. -/
def isGap (c : Char) : Bool :=
  c = ' ' || c = '\t'

/-- The zone at the end of a time, if there is one. -/
def zone? (text : List Char) : Option (Option (Bool × Nat × Nat)) :=
  match text.dropWhile isGap with
  | [] => if text.isEmpty then some none else none
  | ['Z'] => some (some (false, 0, 0))
  | sign :: rest => do
    if sign ≠ '-' ∧ sign ≠ '+' then failure
    let (hours, rest) ← number? 1 2 rest
    match rest with
    | [] => return some (sign = '-', hours, 0)
    | ':' :: rest =>
      let (minutes, rest) ← number? 2 2 rest
      if rest.isEmpty then return some (sign = '-', hours, minutes) else failure
    | _ => failure

/-- What stands between a date and a time of day. -/
def dropTimeMark? : List Char → Option (List Char)
  | 'T' :: rest => some rest
  | 't' :: rest => some rest
  | c :: rest => if isGap c then some (rest.dropWhile isGap) else none
  | [] => none

/-- The time that a text is. -/
def time? (text : List Char) : Option TimeParts := do
  let (year, rest) ← number? 4 4 text
  let rest ← expect? '-' rest
  let (month, afterMonth) ← number? 1 2 rest
  let afterMonth ← expect? '-' afterMonth
  let (day, afterDay) ← number? 1 2 afterMonth
  if afterDay.isEmpty then return ⟨year, month, day, none, none⟩
  let rest ← dropTimeMark? afterDay
  let (hour, rest) ← number? 1 2 rest
  let rest ← expect? ':' rest
  let (minute, rest) ← number? 2 2 rest
  let rest ← expect? ':' rest
  let (second, rest) ← number? 2 2 rest
  let (places, rest) :=
    match rest with
    | '.' :: rest => (rest.takeWhile (isDigitBelow 10), rest.dropWhile (isDigitBelow 10))
    | rest => ([], rest)
  let zone ← zone? rest
  return ⟨year, month, day, some (hour, minute, second,
    places.filterMap IntegerText.digitValue?), zone⟩

/-- Whether a plain scalar is a time; a date alone has two digits for the month and the day. -/
def isTime (text : List Char) : Bool :=
  (time? text).any fun parts => parts.clock.isSome || text.length = 10

/-- The marks that no plain scalar begins with and that mean nothing as the text of one. -/
def markWords : List (List Char) :=
  [['!'], ['&'], ['*']]

/-- A text without the line end behind it; a line end alone is a text of its own. -/
def dropFeed (text : List Char) : List Char :=
  if 1 < text.length ∧ text.getLast? = some '\n' then text.dropLast else text

/-- The tag that the text of a scalar tells. -/
def implicitTag (content : Text) : Tag :=
  match (Text.toChars? content).map dropFeed with
  | none => .str
  | some text =>
    if truthWords.contains text then .bool
    else if isFloating text then .float
    else if isInteger text then .int
    else if text = ['<', '<'] then .merge
    else if nullWords.contains text then .null
    else if isTime text then .timestamp
    else if text = ['='] then .value
    else if markWords.contains text then .other (Tag.standardStart ++ "yaml")
    else .str

end Yaml

end ProgramInterface
