import ProgramInterface.Display
import ProgramInterface.Number.FloatText
import ProgramInterface.Text.Case
import ProgramInterface.Yaml.Place
import ProgramInterface.Yaml.Resolve

/-!
# YAML values

What a YAML text can say: numbers, times, texts, lists, sets and mappings. Here is also how scalars
are read as values, and which values are the same key.
-/

namespace ProgramInterface

namespace Yaml

/-- A point in time: a date and a time of day, perhaps with the distance of its zone from the zero
meridian in seconds. -/
structure Instant where
  year : Nat
  month : Nat
  day : Nat
  hour : Nat
  minute : Nat
  second : Nat
  microsecond : Nat
  zone : Option Int
  deriving DecidableEq

/-- A value. A collection that stands inside itself, below the members of the mappings in the outermost
one, is a loop there. -/
inductive Value where
  | null
  | bool (value : Bool)
  | int (value : Int)
  | float (value : Binary64)
  | text (value : Text)
  | bytes (value : List UInt8)
  | date (year month day : Nat)
  | instant (value : Instant)
  | list (items : List Value)
  | pair (key value : Value)
  | set (items : List Value)
  | mapping (members : List (Value × Value))
  | loop (isMapping : Bool)
  deriving Inhabited

/-! ## Display -/

/-- A number with at least two digits. -/
def twoDigits (n : Nat) : Text :=
  Text.padLeft 2 '0' (Text.ofNat n)

/-- A year with four digits. -/
def fourDigits (n : Nat) : Text :=
  Text.padLeft 4 '0' (Text.ofNat n)

/-- Numbers with commas between them. -/
def commaList (numbers : List Nat) : Text :=
  Text.joinWith ", " (numbers.map Text.ofNat)

/-- The form of a length of time in a message. -/
def showDelta (seconds : Int) : Text :=
  let days := seconds / 86400
  let rest := seconds % 86400
  let parts : List Text :=
    (if days = 0 then [] else ["days=" ++ Text.ofInt days]) ++
      (if rest = 0 then [] else ["seconds=" ++ Text.ofInt rest])
  let inner : Text := if parts.isEmpty then "0" else Text.joinWith ", " parts
  "datetime.timedelta(" ++ inner ++ ")"

/-- The form of a zone in a message. -/
def showZone (seconds : Int) : Text :=
  if seconds = 0 then "datetime.timezone.utc"
  else "datetime.timezone(" ++ showDelta seconds ++ ")"

/-- The form of an instant in a message. -/
def Instant.show (t : Instant) : Text :=
  let clock :=
    if t.microsecond ≠ 0 then [t.hour, t.minute, t.second, t.microsecond]
    else if t.second ≠ 0 then [t.hour, t.minute, t.second]
    else [t.hour, t.minute]
  let zone : Text := t.zone.elim [] fun seconds => ", tzinfo=" ++ showZone seconds
  "datetime.datetime(" ++ commaList ([t.year, t.month, t.day] ++ clock) ++ zone ++ ")"

/-- A date as text. -/
def dateText (year month day : Nat) : Text :=
  fourDigits year ++ "-" ++ twoDigits month ++ Text.ofString "-" ++ twoDigits day

/-- The distance of a zone as text. -/
def zoneText (seconds : Int) : Text :=
  let minutes := seconds.natAbs / 60
  (if seconds < 0 then "-" else "+") ++ twoDigits (minutes / 60) ++ Text.ofString ":" ++
    twoDigits (minutes % 60)

/-- An instant as text. -/
def Instant.text (t : Instant) : Text :=
  let fraction : Text :=
    if t.microsecond = 0 then []
    else "." ++ Text.padLeft 6 '0' (Text.ofNat t.microsecond)
  dateText t.year t.month t.day ++ " " ++ twoDigits t.hour ++ Text.ofString ":" ++
    twoDigits t.minute ++ Text.ofString ":" ++ twoDigits t.second ++ fraction ++
    t.zone.elim [] zoneText

mutual

/-- The form of a value in a message. -/
def Value.display : Value → Display
  | .null => .none
  | .bool b => .ofBool b
  | .int n => .ofInt n
  | .float x => .ofFloat x
  | .text t => .text t
  | .bytes data => .bytes data
  | .date year month day => .bare ("datetime.date(" ++ commaList [year, month, day] ++ ")")
  | .instant t => .bare t.show
  | .list items => .list (displayItems items)
  | .pair key value => .tuple [key.display, value.display]
  | .set items => .set (displayItems items)
  | .mapping members => .mapping (displayMembers members)
  | .loop isMapping => .bare (if isMapping then "\x7b...\x7d" else "[...]")

/-- The forms of some values. -/
def displayItems : List Value → List Display
  | [] => []
  | item :: rest => item.display :: displayItems rest

/-- The forms of some members. -/
def displayMembers : List (Value × Value) → List (Display × Display)
  | [] => []
  | (key, value) :: rest => (key.display, value.display) :: displayMembers rest

end

/-- The text that a value stands for where a text is wanted. -/
def Value.plainText : Value → Text
  | .text t => t
  | .date year month day => dateText year month day
  | .instant t => t.text
  | value => value.display.write

/-! ## Keys -/

/-- The exact value of a number, as a fraction. -/
def Value.number? : Value → Option (Int × Nat)
  | .bool b => some (if b then 1 else 0, 1)
  | .int n => some (n, 1)
  | .float (.finite negative mantissa exponent) =>
    let (num, den) := Binary64.magnitude mantissa exponent
    some (if negative then -(num : Int) else num, den)
  | _ => none

/-- Whether a year has a leap day. -/
def isLeap (year : Nat) : Bool :=
  year % 4 = 0 && (year % 100 ≠ 0 || year % 400 = 0)

/-- The number of days of a month. -/
def daysIn (year month : Nat) : Nat :=
  match month with
  | 2 => if isLeap year then 29 else 28
  | 4 | 6 | 9 | 11 => 30
  | _ => 31

/-- The number of a day, counted from the beginning of the calendar. -/
def dayNumber (year month day : Nat) : Nat :=
  let past := year - 1
  let months := (List.range (month - 1)).map fun n => daysIn year (n + 1)
  past * 365 + past / 4 - past / 100 + past / 400 + months.foldl (· + ·) 0 + day

/-- The microseconds from the beginning of the calendar to an instant, seen from its own zone. -/
def Instant.clock (t : Instant) : Int :=
  ((((dayNumber t.year t.month t.day : Int) * 24 + t.hour) * 60 + t.minute) * 60 + t.second) *
    1000000 + t.microsecond

/-- Whether two instants are equal: with zones if they are the same point in time, and without zones
if they look the same. -/
def Instant.isSame (s t : Instant) : Bool :=
  match s.zone, t.zone with
  | none, none => s.clock = t.clock
  | some zone, some other => s.clock - zone * 1000000 = t.clock - other * 1000000
  | _, _ => false

/-- Whether two values without parts are the same key: numbers of equal value are. -/
def Value.isSameKey : Value → Value → Bool
  | .null, .null => true
  | .text s, .text t => s == t
  | .bytes s, .bytes t => s == t
  | .date y m d, .date y' m' d' => y == y' && m == m' && d == d'
  | .instant s, .instant t => s.isSame t
  | .float (.infinite s), .float (.infinite t) => s == t
  | .float .nan, .float .nan => true
  | v, w =>
    match v.number?, w.number? with
    | some (a, b), some (c, d) => a * d = c * b
    | _, _ => false

/-- Members with one more: a key that is there keeps its place and takes what is new. -/
def putMember {α : Type} (members : List (Value × α)) (key : Value) (new : α) : List (Value × α) :=
  if members.any fun m => m.1.isSameKey key then
    members.map fun m => if m.1.isSameKey key then (m.1, new) else m
  else members ++ [(key, new)]

/-- The value of the member whose key is a given text. -/
def Value.member? (name : Text) : List (Value × Value) → Option Value
  | [] => none
  | (.text key, value) :: rest => if key = name then some value else Value.member? name rest
  | _ :: rest => Value.member? name rest

/-! ## Scalars -/

/-- The words for truth values, in lower case. -/
def truths : List (String × Bool) :=
  [("yes", true), ("no", false), ("true", true), ("false", false), ("on", true), ("off", false)]

/-- A truth value. -/
def readTruth (content : Text) : Except Fault Value :=
  let word := content.flatMap CodePoint.lower
  match truths.find? fun entry => Text.ofString entry.1 == word with
  | some (_, b) => .ok (.bool b)
  | none => .error (.unknownWord word)

/-- An integer in a base. -/
def readIn (base : Nat) (t : Text) : Except Fault Int :=
  (IntegerText.read base t).mapError fun fault => .value (fault.message base t)

/-- The parts of a text between colons. -/
def splitColons (t : Text) : List Text :=
  t.splitOn (.scalar ':')

/-- The value of some places of base sixty, the first the highest. -/
def ofSixties (places : List Int) : Int :=
  places.foldl (fun value place => value * 60 + place) 0

/-- An integer without its sign; without digits it is a fault. -/
def readMagnitude (t : Text) : Except Fault Int :=
  match t with
  | [] => .error .emptyNumber
  | [.scalar '0'] => .ok 0
  | .scalar '0' :: .scalar 'b' :: digits => readIn 2 digits
  | .scalar '0' :: .scalar 'x' :: digits => readIn 16 digits
  | .scalar '0' :: _ => readIn 8 t
  | _ =>
    if t.contains (.scalar ':') then ((splitColons t).mapM (readIn 10)).map ofSixties
    else readIn 10 t

/-- The sign at the head of a number and the rest of it; an empty number is a fault. -/
def splitNumber (t : Text) : Except Fault (Bool × Text) :=
  match t with
  | [] => .error .emptyNumber
  | .scalar '-' :: rest => .ok (true, rest)
  | .scalar '+' :: rest => .ok (false, rest)
  | _ => .ok (false, t)

/-- A text without underscores. -/
def dropUnderscores (t : Text) : Text :=
  t.filter (· ≠ .scalar '_')

/-- An integer. -/
def readInteger (content : Text) : Except Fault Value := do
  let (negative, digits) ← splitNumber (dropUnderscores content)
  let magnitude ← readMagnitude digits
  return .int (if negative then -magnitude else magnitude)

/-- A number with a point but without a sign of its own. -/
def readFloat (t : Text) : Except Fault Binary64 :=
  match FloatText.read? t with
  | some x => .ok x
  | none => .error (.value ("could not convert string to float: " ++ t.quoted))

/-- A number with its sign turned, if asked for. -/
def turnIf (negative : Bool) : Binary64 → Binary64
  | .finite sign mantissa exponent => .finite (sign != negative) mantissa exponent
  | .infinite sign => .infinite (sign != negative)
  | .nan => .nan

/-- A power of sixty as a floating-point number, unless it is too great. -/
def weightOf (power : Nat) : Except Fault Binary64 :=
  match Binary64.ofInt power with
  | .infinite _ => .error (@Fault.overflow .weight)
  | weight => .ok weight

/-- The sum of a number and of places of base sixty, the first of which has the weight `power`. Each
step is rounded. -/
def addSixties (sum : Binary64) (power : Nat) : List Binary64 → Except Fault Binary64
  | [] => .ok sum
  | place :: rest => do
    let weight ← weightOf power
    addSixties (sum.add (place.mul weight)) (power * 60) rest

/-- A floating-point number. -/
def readFloating (content : Text) : Except Fault Value := do
  let (negative, digits) ← splitNumber ((dropUnderscores content).flatMap CodePoint.lower)
  if digits = Text.ofString ".inf" then return .float (.infinite negative)
  if digits = Text.ofString ".nan" then return .float .nan
  if digits.contains (.scalar ':') then
    let places ← (splitColons digits).mapM readFloat
    let sum ← addSixties (.finite false 0 Binary64.leastExponent) 1 places.reverse
    return .float (turnIf negative sum)
  return .float (turnIf negative (← readFloat digits))

/-! ## Bytes and times -/

/-- The value of a character of the alphabet of 64 characters. -/
def sextet? (c : Char) : Option Nat :=
  if 'A' ≤ c ∧ c ≤ 'Z' then some (c.toNat - 'A'.toNat)
  else if 'a' ≤ c ∧ c ≤ 'z' then some (c.toNat - 'a'.toNat + 26)
  else if '0' ≤ c ∧ c ≤ '9' then some (c.toNat - '0'.toNat + 52)
  else if c = '+' then some 62
  else if c = '/' then some 63
  else none

/-- The sextets of a text up to the filling at its end, last first; characters outside the alphabet are
left out. Nothing, if the text breaks off inside a group of four. -/
def sextets (done : List Nat) (fill : Nat) : List Char → Option (List Nat)
  | [] => if done.length % 4 = 0 then some done else none
  | c :: rest =>
    if c = '=' then
      if 2 ≤ done.length % 4 ∧ 4 ≤ done.length % 4 + fill + 1 then some done
      else sextets done (fill + 1) rest
    else
      match sextet? c with
      | some n => sextets (n :: done) 0 rest
      | none => sextets done fill rest

/-- The bytes that some sextets stand for. -/
def bytesOfSextets : List Nat → List UInt8
  | a :: b :: c :: d :: rest =>
    let group := [a * 4 + b / 16, b % 16 * 16 + c / 4, c % 4 * 64 + d]
    group.map UInt8.ofNat ++ bytesOfSextets rest
  | [a, b, c] => [a * 4 + b / 16, b % 16 * 16 + c / 4].map UInt8.ofNat
  | [a, b] => [UInt8.ofNat (a * 4 + b / 16)]
  | _ => []

/-- Bytes. -/
def readBytes (content : Text) : Except Fault Value :=
  match Text.toChars? content with
  | none => .error .malformed
  | some chars =>
    if chars.all (·.toNat < 0x80) then
      match sextets [] 0 chars with
      | some done => .ok (.bytes (bytesOfSextets done.reverse))
      | none => .error .malformed
    else .error .malformed

/-- Refuses a date that does not exist. -/
def checkDate (year month day : Nat) : Except Fault Unit := do
  if year = 0 then throw (.value "year 0 is out of range")
  if month = 0 ∨ 12 < month then throw (.value "month must be in 1..12")
  if day = 0 ∨ daysIn year month < day then throw (.value "day is out of range for month")

/-- Refuses a time of day that does not exist. -/
def checkClock (hour minute second : Nat) : Except Fault Unit := do
  if 23 < hour then throw (.value "hour must be in 0..23")
  if 59 < minute then throw (.value "minute must be in 0..59")
  if 59 < second then throw (.value "second must be in 0..59")

/-- The distance of a zone in seconds, which is less than a day. -/
def readZone (negative : Bool) (hours minutes : Nat) : Except Fault Int :=
  let size : Int := hours * 3600 + minutes * 60
  let seconds := if negative then -size else size
  if size < 86400 then .ok seconds
  else .error (.value
    ("offset must be a timedelta strictly between -timedelta(hours=24) and " ++
      Text.ofString "timedelta(hours=24), not " ++ showDelta seconds ++ "."))

/-- The microseconds that the first six places of a fraction give. -/
def microseconds (places : List Nat) : Nat :=
  let kept := places.take 6
  IntegerText.ofDigits 10 (kept ++ List.replicate (6 - kept.length) 0)

/-- A date or an instant. -/
def readTime (content : Text) : Except Fault Value :=
  match (Text.toChars? content).bind fun text => time? (dropFeed text) with
  | none => .error .notTimestamp
  | some parts => do
    match parts.clock with
    | none =>
      checkDate parts.year parts.month parts.day
      return .date parts.year parts.month parts.day
    | some (hour, minute, second, places) =>
      let zone ←
        match parts.zone with
        | none => pure none
        | some (negative, hours, minutes) => (readZone negative hours minutes).map some
      checkDate parts.year parts.month parts.day
      checkClock hour minute second
      return .instant ⟨parts.year, parts.month, parts.day, hour, minute, second,
        microseconds places, zone⟩

/-- The value of a scalar with a tag. -/
def readScalar (tag : Tag) (content : Text) : Except Fault Value :=
  match tag with
  | .null => .ok .null
  | .bool => readTruth content
  | .int => readInteger content
  | .float => readFloating content
  | .binary => readBytes content
  | .timestamp => readTime content
  | .str => .ok (.text content)
  | _ => .error .malformed

end Yaml

end ProgramInterface
