import ProgramInterface.Display
import ProgramInterface.Json.Writer
import ProgramInterface.Number.FloatFormat

/-!
# Message templates

A template is a text with places marked by percent signs, each with a letter for the form in which a
value is put there, and perhaps with a name, flags, a width and a precision. Values are taken in
order or by name. A template that does not fit its values has no text.
-/

namespace ProgramInterface

namespace Log

/-- How a value is fitted into its place. -/
structure Fit where
  left : Bool
  plus : Bool
  blank : Bool
  alternate : Bool
  zeros : Bool
  width : Nat
  precision : Option Nat

/-- No flags, width or precision. -/
def Fit.plain : Fit := ⟨false, false, false, false, false, 0, none⟩

/-- The values for a template: those that are still to be taken in order, and the value whose members
are taken by name, if there is one. -/
structure Supply where
  next : List Json.Value
  named : Option Json.Value

/-- The supply of some values. A single mapping with members gives them by name and stands for itself
once. -/
def Supply.of : List Json.Value → Supply
  | [.object (member :: rest)] => ⟨[.object (member :: rest)], some (.object (member :: rest))⟩
  | values => ⟨values, none⟩

/-- The next value in order and the supply after it. -/
def Supply.take (supply : Supply) : Option (Json.Value × Supply) :=
  match supply.next with
  | [] => none
  | value :: rest => some (value, { supply with next := rest })

/-- Whether no value is left over; values by name may be. -/
def Supply.isSpent (supply : Supply) : Bool :=
  supply.named.isSome || supply.next.isEmpty

/-- The name in parentheses at the head of a text, behind the first parenthesis, and the text after
it; parentheses in the name come in pairs. -/
def nameOf (depth : Nat) (done : Text) : Text → Option (Text × Text)
  | [] => none
  | c :: rest =>
    if c = .scalar ')' then
      if depth = 0 then some (done.reverse, rest) else nameOf (depth - 1) (c :: done) rest
    else if c = .scalar '(' then nameOf (depth + 1) (c :: done) rest
    else nameOf depth (c :: done) rest

/-- Flags at the head of a text. -/
def flags (fit : Fit) : Text → Fit × Text
  | .scalar '-' :: rest => flags { fit with left := true } rest
  | .scalar '+' :: rest => flags { fit with plus := true } rest
  | .scalar ' ' :: rest => flags { fit with blank := true } rest
  | .scalar '#' :: rest => flags { fit with alternate := true } rest
  | .scalar '0' :: rest => flags { fit with zeros := true } rest
  | rest => (fit, rest)

/-- The value of a plain decimal digit. -/
def digit? (c : CodePoint) : Option Nat :=
  c.char?.bind (IntegerText.digitIn? 10)

/-- A number at the head of a text, zero if there is none. -/
def count (value : Nat) : Text → Nat × Text
  | [] => (value, [])
  | c :: rest =>
    match digit? c with
    | some d => count (value * 10 + d) rest
    | none => (value, c :: rest)

/-- The largest width and precision. -/
def widest : Nat := 2147483647

/-- A number at the head of a text, or one from the supply if a star stands there; none that is
larger than the largest width. -/
def countOrStar (supply : Supply) (t : Text) : Option (Int × Supply × Text) := do
  let (n, supply, rest) ←
    match t with
    | .scalar '*' :: rest => do
      let (value, supply) ← supply.take
      match value with
      | .int n => some (n, supply, rest)
      | .bool b => some (if b then 1 else 0, supply, rest)
      | _ => none
    | t =>
      let (n, rest) := count 0 t
      some ((n : Int), supply, rest)
  if n.natAbs ≤ widest then some (n, supply, rest) else none

/-- A text in its place, given what precedes its digits: a sign and the mark of a base. -/
def place (fit : Fit) (fill : Char) (front body : Text) : Text :=
  let gap := fit.width - front.length - body.length
  if fit.left then front ++ body ++ List.replicate gap (.scalar ' ')
  else if fill = '0' then front ++ List.replicate gap (.scalar '0') ++ body
  else List.replicate gap (.scalar ' ') ++ front ++ body

/-- The sign in front of a number. -/
def signOf (fit : Fit) (negative : Bool) : Text :=
  if negative then "-" else if fit.plus then "+" else if fit.blank then " " else []

/-- The fill in front of a number. -/
def fillOf (fit : Fit) : Char :=
  if fit.zeros then '0' else ' '

/-- A text, cut to the precision. -/
def placeText (fit : Fit) (t : Text) : Text :=
  place fit ' ' [] (fit.precision.elim t t.take)

/-- An integer in a base, with at least as many digits as the precision. -/
def placeInteger (fit : Fit) (base : Nat) (mark : String) (capital : Bool) (n : Int) : Text :=
  let digits := Nat.toDigits base n.natAbs
  let digits := if capital then digits.map Char.toUpper else digits
  let zeros := List.replicate (fit.precision.getD 0 - digits.length) '0'
  let mark : Text := if fit.alternate then mark else []
  place fit (fillOf fit) (signOf fit (n < 0) ++ mark) (Text.ofChars (zeros ++ digits))

/-- A floating-point number. -/
def placeFloat (fit : Fit) (way : Binary64.Form) (capital : Bool) (x : Binary64) : Text :=
  let text := x.format way (fit.precision.getD 6) fit.alternate
  let text := if capital then text.map Char.toUpper else text
  match text with
  | '-' :: body => place fit (fillOf fit) (signOf fit true) (Text.ofChars body)
  | body => place fit (fillOf fit) (signOf fit false) (Text.ofChars body)

/-- The integer that a value is. -/
def integer? : Json.Value → Option Int
  | .bool b => some (if b then 1 else 0)
  | .int n => some n
  | _ => none

/-- The integer that a number is, its fraction cut off. -/
def wholeNumber? : Json.Value → Option Int
  | .float x => x.truncate?
  | value => integer? value

/-- The floating-point number nearest to a number. -/
def float? (value : Json.Value) : Option Binary64 :=
  match value with
  | .float x => some x
  | value =>
    (integer? value).bind fun n =>
      match Binary64.ofInt n with
      | .infinite _ => none
      | x => some x

/-- A single character, given as such or by its number. -/
def character? (value : Json.Value) : Option Text :=
  match value with
  | .text [c] => some [c]
  | value =>
    (integer? value).bind fun n =>
      if n < 0 then none else (CodePoint.ofNat? n.toNat).map ([·])

/-- A text with escapes in place of all but the plain characters. -/
def plainOnly (t : Text) : Text :=
  t.flatMap fun c => if c.val < 0x80 then [c] else Text.ofChars (Text.numericEscape c.val)

/-- A value in the form that a letter asks for. -/
def form? (fit : Fit) (letter : Char) (value : Json.Value) : Option Text :=
  let shown (write : Display → Text) : Option Text :=
    if value.isWritable then some (placeText fit (write value.display)) else none
  let floating (way : Binary64.Form) (capital : Bool) : Option Text :=
    (float? value).map (placeFloat fit way capital)
  match letter with
  | 's' => shown Display.plain
  | 'r' => shown Display.write
  | 'a' => shown fun display => plainOnly display.write
  | 'd' | 'i' | 'u' =>
    (wholeNumber? value).bind fun n =>
      if IntegerText.fits n then some (placeInteger fit 10 "" false n) else none
  | 'o' => (integer? value).map (placeInteger fit 8 "0o" false)
  | 'x' => (integer? value).map (placeInteger fit 16 "0x" false)
  | 'X' => (integer? value).map (placeInteger fit 16 "0X" true)
  | 'c' => (character? value).map fun t => place fit ' ' [] t
  | 'e' => floating .scientific false
  | 'E' => floating .scientific true
  | 'f' => floating .fixed false
  | 'F' => floating .fixed true
  | 'g' => floating .general false
  | 'G' => floating .general true
  | _ => none

/-- The text behind a letter for the size of a number, which has no meaning. -/
def dropSizeLetter (t : Text) : Text :=
  match t with
  | .scalar c :: rest => if c = 'h' ∨ c = 'l' ∨ c = 'L' then rest else t
  | t => t

/-- The precision at the head of a text, if a point stands there; a negative one counts as zero. -/
def precisionOf (supply : Supply) (t : Text) : Option (Option Nat × Supply × Text) :=
  match t with
  | .scalar '.' :: rest => do
    let (n, supply, rest) ← countOrStar supply rest
    some (some n.toNat, supply, rest)
  | t => some (none, supply, t)

/-- The width at the head of a text; a negative one from the supply puts the value to the left. -/
def widthOf (fit : Fit) (supply : Supply) (t : Text) : Option (Fit × Supply × Text) := do
  let (n, supply, rest) ← countOrStar supply t
  some ({ fit with width := n.natAbs, left := fit.left || n < 0 }, supply, rest)

/-- The supply for a place with a name, whose member is the next value. -/
def named (supply : Supply) (t : Text) : Option (Supply × Text) :=
  match t with
  | .scalar '(' :: rest => do
    let members ← supply.named
    let (name, rest) ← nameOf 0 [] rest
    let value ← members.member? name
    some ({ supply with next := [value] }, rest)
  | t => some (supply, t)

/-- One place behind its percent sign: the text put there, the supply after it and the rest. Two
percent signs next to each other stand for one. -/
def onePlace (supply : Supply) (t : Text) : Option (Text × Supply × Text) :=
  match t with
  | .scalar '%' :: rest => some ("%", supply, rest)
  | t => do
    let (supply, t) ← named supply t
    let (fit, t) := flags .plain t
    let (fit, supply, t) ← widthOf fit supply t
    let (precision, supply, t) ← precisionOf supply t
    match dropSizeLetter t with
    | .scalar letter :: rest => do
      let (value, supply) ← supply.take
      let text ← form? { fit with precision } letter value
      some (text, supply, rest)
    | _ => none

/-- A template with its places filled; `fuel` bounds its length. -/
def fillFrom (supply : Supply) (done : Text) : Nat → Text → Option Text
  | 0, _ => none
  | _ + 1, [] => if supply.isSpent then some done.reverse else none
  | fuel + 1, c :: rest =>
    if c = .scalar '%' then do
      let (text, supply, rest) ← onePlace supply rest
      fillFrom supply (text.reverse ++ done) fuel rest
    else fillFrom supply (c :: done) fuel rest

/-- A template with its places filled from values. Without values the template is the text. -/
def fill? (template : Text) (values : List Json.Value) : Option Text :=
  if values.isEmpty then some template
  else fillFrom (.of values) [] (template.length + 1) template

/-- What a record says: a template and the values for its places. -/
structure Message where
  template : Text
  values : List Json.Value

/-- A text is a message that says just this. -/
instance : Coe Text Message := ⟨fun text => ⟨text, []⟩⟩

/-- The text of a message; there is none if the template does not fit the values. -/
def Message.text? (message : Message) : Option Text :=
  fill? message.template message.values

@[simp]
theorem Message.text_of_text (text : Text) : (text : Message).text? = some text := rfl

end Log

end ProgramInterface
