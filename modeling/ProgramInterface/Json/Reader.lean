import ProgramInterface.Json.Fault
import ProgramInterface.Json.Value

/-!
# Reading JSON

One reader with two dialects. The plain dialect lets a number end where it stops being one and takes
escaped surrogates that stand alone; of members with one name the last wins. The strict dialect
refuses both, keeps every member, and bounds the nesting of arrays and objects. Both bound the length
of integers and take the words `NaN`, `Infinity` and `-Infinity` as numbers.
-/

namespace ProgramInterface

namespace Json

/-- The two ways to read JSON. -/
inductive Dialect where
  | plain
  | strict
  deriving DecidableEq

/-- The greatest number of arrays and objects around a value in the strict dialect. -/
def nestingLimit : Nat :=
  200

/-- Whether a dialect reads a value with a number of arrays and objects around it. -/
def Dialect.admits (dialect : Dialect) (depth : Nat) : Bool :=
  match dialect with
  | .plain => true
  | .strict => depth ≤ nestingLimit

/-- The outcome of reading something at the head of a text: what was read and the text after it. -/
abbrev Reading (α : Type) := Except Fault (α × Text)

/-- White space between the parts of a value. -/
def isGap (c : CodePoint) : Bool :=
  c = .scalar ' ' || c = .scalar '\n' || c = .scalar '\t' || c = .scalar '\r'

/-- A text without the white space at its head. -/
def skipGap (t : Text) : Text :=
  t.dropWhile isGap

/-- The value of a hexadecimal digit. -/
def hexDigit? (c : CodePoint) : Option Nat :=
  c.char?.bind (IntegerText.digitIn? 16)

/-- A plain decimal digit. -/
def isDigit (c : CodePoint) : Bool :=
  0x30 ≤ c.val && c.val ≤ 0x39

/-- The number that a run of plain decimal digits denotes. -/
def digitsValue (digits : Text) : Nat :=
  digits.foldl (fun n c => n * 10 + (c.val - 0x30)) 0

/-! ## Strings -/

/-- Four hexadecimal digits of the escape that begins at `start`. -/
def readUnit (dialect : Dialect) (start t : Text) : Reading Nat :=
  let digits := t.take 4
  let atEnd : Bool :=
    match dialect with
    | .plain => t.length ≤ 4
    | .strict => byteLength digits < 4
  if atEnd then .error ⟨.hexEscape, [], start⟩
  else
    match digits.findIdx? fun c => (hexDigit? c).isNone with
    | some i => .error ⟨.hexEscape, t.drop i, start⟩
    | none =>
      .ok ((digits.filterMap hexDigit?).foldl (fun n d => n * 16 + d) 0, t.drop 4)

/-- Whether a number is that of the first surrogate of a pair. -/
def isHigh (n : Nat) : Bool :=
  0xD800 ≤ n && n < 0xDC00

/-- Whether a number is that of the second surrogate of a pair. -/
def isLow (n : Nat) : Bool :=
  0xDC00 ≤ n && n < 0xE000

/-- The number that a pair of surrogates stands for. -/
def joinPair (high low : Nat) : Nat :=
  0x10000 + (high - 0xD800) * 0x400 + (low - 0xDC00)

/-- The text from the last of four digits on, where a fault of the whole escape is placed. -/
def lastDigit (t : Text) : Text :=
  t.drop 3

/-- The code point of an escape by number whose digits begin at `t`. -/
def readNumeric (dialect : Dialect) (start t : Text) :
    Except Fault (CodePoint × Text) := do
  let (n, rest) ← readUnit dialect start t
  let alone : Reading CodePoint := .ok ((CodePoint.ofNat? n).getD default, rest)
  match dialect with
  | .plain =>
    if isHigh n then
      match rest with
      | .scalar '\\' :: .scalar 'u' :: second =>
        if second.length ≤ 4 then alone
        else
          let (m, after) ← readUnit dialect rest second
          if isLow m then .ok ((CodePoint.ofNat? (joinPair n m)).getD default, after) else alone
      | _ => alone
    else alone
  | .strict =>
    if isLow n then .error ⟨.loneSurrogate, lastDigit t, start⟩
    else if isHigh n then
      match rest with
      | .scalar '\\' :: .scalar 'u' :: second =>
        let (m, after) ← readUnit dialect rest second
        if isLow m then .ok ((CodePoint.ofNat? (joinPair n m)).getD default, after)
        else .error ⟨.loneSurrogate, lastDigit second, start⟩
      | .scalar '\\' :: after => .error ⟨.surrogatePair, after, start⟩
      | _ => .error ⟨.surrogatePair, rest, start⟩
    else alone

/-- The character that a letter stands for after a backslash. -/
def escapedChar? (c : Char) : Option Char :=
  match c with
  | '"' => some '"'
  | '\\' => some '\\'
  | '/' => some '/'
  | 'b' => some '\x08'
  | 'f' => some '\x0c'
  | 'n' => some '\n'
  | 'r' => some '\r'
  | 't' => some '\t'
  | _ => none

/-- The code point of an escape; `t` is the text after its backslash. -/
def readEscape (dialect : Dialect) (opening t : Text) : Reading CodePoint :=
  match t with
  | [] => .error ⟨.closingQuote, [], opening⟩
  | .scalar 'u' :: rest => readNumeric dialect t rest
  | c :: rest =>
    match c.char?.bind escapedChar? with
    | some char => .ok (.scalar char, rest)
    | none => .error ⟨.escape, t, .scalar '\\' :: t⟩

/-- The rest of a string whose opening quote begins the text `opening`; `fuel` bounds its length and
`done` holds what was read, last first. -/
def readStringFrom (dialect : Dialect) (opening : Text) (done : Text) : Nat → Text → Reading Text
  | 0, t => .error ⟨.closingQuote, t, opening⟩
  | _ + 1, [] => .error ⟨.closingQuote, [], opening⟩
  | fuel + 1, c :: rest =>
    if c = .scalar '"' then .ok (done.reverse, rest)
    else if c = .scalar '\\' then
      match readEscape dialect opening rest with
      | .ok (point, after) => readStringFrom dialect opening (point :: done) fuel after
      | .error fault => .error fault
    else if c.val < 0x20 then .error ⟨.control, c :: rest, opening⟩
    else readStringFrom dialect opening (c :: done) fuel rest

/-- A string; `opening` begins with its opening quote. -/
def readString (dialect : Dialect) (opening : Text) : Reading Text :=
  readStringFrom dialect opening [] (opening.length + 1) (opening.drop 1)

/-! ## Numbers and words -/

/-- At least one digit, and as many as follow. -/
def readDigits (start t : Text) : Reading Text :=
  match t with
  | [] => .error ⟨.digit, [], start⟩
  | c :: _ =>
    if isDigit c then .ok (t.takeWhile isDigit, t.dropWhile isDigit) else .error ⟨.digit, t, start⟩

/-- The digits behind a point, if one follows. -/
def readFraction (dialect : Dialect) (start t : Text) : Reading (Option Text) :=
  match t with
  | .scalar '.' :: rest =>
    match readDigits start rest, dialect with
    | .ok (digits, rest), _ => .ok (some digits, rest)
    | .error _, .plain => .ok (none, t)
    | .error fault, .strict => .error fault
  | _ => .ok (none, t)

/-- The exponent of a number, if one follows. -/
def readExponent (dialect : Dialect) (start t : Text) : Reading (Option Int) :=
  match t with
  | c :: rest =>
    if c = .scalar 'e' ∨ c = .scalar 'E' then
      let (negative, rest) :=
        match rest with
        | .scalar '-' :: rest => (true, rest)
        | .scalar '+' :: rest => (false, rest)
        | rest => (false, rest)
      match readDigits start rest, dialect with
      | .ok (digits, rest), _ =>
        let size : Int := digitsValue digits
        .ok (some (if negative then -size else size), rest)
      | .error _, .plain => .ok (none, t)
      | .error fault, .strict => .error fault
    else .ok (none, t)
  | [] => .ok (none, t)

/-- The digits in front of the point: a zero, or digits that do not begin with zero. -/
def readWhole (dialect : Dialect) (start t : Text) : Reading Text :=
  match t with
  | .scalar '0' :: rest =>
    match dialect, rest with
    | .strict, c :: _ => if isDigit c then .error ⟨.digit, rest, start⟩ else .ok (t.take 1, rest)
    | _, _ => .ok (t.take 1, rest)
  | _ => readDigits start t

/-- A number whose digits begin at `t` and that itself begins at `start`. -/
def readNumber (dialect : Dialect) (negative : Bool) (start t : Text) :
    Except Fault (Value × Text) := do
  let (whole, rest) ← readWhole dialect start t
  let (fraction, rest) ← readFraction dialect start rest
  let (exponent, rest) ← readExponent dialect start rest
  match fraction, exponent with
  | none, none =>
    if IntegerText.decimalLimit < whole.length then
      throw ⟨.digitLimit whole.length, t.drop (IntegerText.decimalLimit + 1), start⟩
    let size : Int := digitsValue whole
    return (.int (if negative then -size else size), rest)
  | _, _ =>
    let places := fraction.getD []
    let digits := digitsValue (whole ++ places)
    return (.float (Binary64.ofDecimal negative digits (exponent.getD 0 - places.length)), rest)

/-- The letters of a word; `start` is the text that begins with the word. -/
def readWord (start : Text) (value : Value) : List Char → Text → Reading Value
  | [], t => .ok (value, t)
  | _ :: _, [] => .error ⟨.word, [], start⟩
  | letter :: letters, c :: rest =>
    if c = .scalar letter then readWord start value letters rest
    else .error ⟨.word, c :: rest, start⟩

/-- A value that is neither a string nor an array nor an object. -/
def readScalar (dialect : Dialect) (t : Text) : Reading Value :=
  match t with
  | .scalar 'n' :: rest => readWord t .null ['u', 'l', 'l'] rest
  | .scalar 't' :: rest => readWord t (.bool true) ['r', 'u', 'e'] rest
  | .scalar 'f' :: rest => readWord t (.bool false) ['a', 'l', 's', 'e'] rest
  | .scalar 'N' :: rest => readWord t (.float .nan) ['a', 'N'] rest
  | .scalar 'I' :: rest =>
    readWord t (.float (.infinite false)) ['n', 'f', 'i', 'n', 'i', 't', 'y'] rest
  | .scalar '-' :: .scalar 'I' :: rest =>
    readWord t (.float (.infinite true)) ['n', 'f', 'i', 'n', 'i', 't', 'y'] rest
  | .scalar '-' :: rest => readNumber dialect true t rest
  | c :: _ => if isDigit c then readNumber dialect false t t else .error (.here .value t)
  | [] => .error (.here .value t)

/-! ## Values -/

mutual

/-- A value at the head of a text with `depth` arrays and objects around it; `fuel` bounds the number
of values and brackets. -/
def readValue (dialect : Dialect) (depth fuel : Nat) (t : Text) : Reading Value :=
  match fuel with
  | 0 => .error (.here .value t)
  | fuel + 1 =>
    if dialect.admits depth then
      match t with
      | .scalar '"' :: _ => (readString dialect t).map fun (s, rest) => (.text s, rest)
      | .scalar '[' :: rest =>
        match skipGap rest with
        | [] => .error (.here .firstItem [])
        | .scalar ']' :: after => .ok (.array [], after)
        | items => readItems dialect (depth + 1) fuel [] items
      | .scalar '\x7b' :: rest =>
        match skipGap rest with
        | .scalar '\x7d' :: after => .ok (.object [], after)
        | members => readMembers dialect (depth + 1) fuel [] .firstName members
      | _ => readScalar dialect t
    else .error (.here .nesting t)

/-- The rest of an array from an item on; `depth` counts the array itself. -/
def readItems (dialect : Dialect) (depth fuel : Nat) (done : List Value) (t : Text) :
    Reading Value :=
  match fuel with
  | 0 => .error (.here .value t)
  | fuel + 1 =>
    match readValue dialect depth fuel t with
    | .error fault => .error fault
    | .ok (item, rest) =>
      match skipGap rest with
      | .scalar ',' :: after =>
        match skipGap after with
        | [] => .error (.here .nextItem [])
        | .scalar ']' :: closing => .error (.here .nextItem (.scalar ']' :: closing))
        | next => readItems dialect depth fuel (item :: done) next
      | .scalar ']' :: after => .ok (.array (item :: done).reverse, after)
      | other => .error (.here .itemEnd other)

/-- The rest of an object from a member on; `depth` counts the object itself, and `want` is the cause
given where no name stands. -/
def readMembers (dialect : Dialect) (depth fuel : Nat) (done : List (Text × Value)) (want : Cause)
    (t : Text) : Reading Value :=
  match fuel with
  | 0 => .error (.here .value t)
  | fuel + 1 =>
    match t with
    | .scalar '"' :: _ =>
      match readString dialect t with
      | .error fault => .error fault
      | .ok (name, rest) =>
        match skipGap rest with
        | .scalar ':' :: after =>
          match readValue dialect depth fuel (skipGap after) with
          | .error fault => .error fault
          | .ok (value, rest) =>
            match skipGap rest with
            | .scalar ',' :: after =>
              readMembers dialect depth fuel ((name, value) :: done) .nextName (skipGap after)
            | .scalar '\x7d' :: after =>
              let members := ((name, value) :: done).reverse
              .ok (.object (if dialect = .plain then Value.lastWins members else members), after)
            | other => .error (.here .memberEnd other)
        | other => .error (.here .colon other)
    | _ => .error (.here want t)

end

/-- The value that a whole text denotes, or the first fault. -/
def read (dialect : Dialect) (t : Text) : Except Fault Value := do
  let (value, rest) ← readValue dialect 0 (2 * t.length + 2) (skipGap t)
  match skipGap rest with
  | [] => return value
  | surplus => throw (.here .ending surplus)

end Json

end ProgramInterface
