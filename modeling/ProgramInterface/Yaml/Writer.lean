import ProgramInterface.Yaml.Resolve
import ProgramInterface.Yaml.Place

/-!
# Writing YAML

Mappings of scalars and mappings are written with one member a line, the members of an inner mapping
moved in. A text is written plain if it then reads as the same text, else between single quotes, and
if that cannot be, between double quotes with escapes. Long texts are broken into lines at spaces.
-/

namespace ProgramInterface

namespace Yaml

/-- A value that can be written. -/
inductive Output where
  | null
  | bool (value : Bool)
  | int (value : Int)
  | text (value : Text)
  | mapping (members : List (Text × Output))

namespace Output

/-- The column behind which a text is broken into lines. -/
def bestWidth : Nat := 80

/-- Whether a code point ends a line. -/
def endsLine (c : CodePoint) : Bool :=
  c = .scalar '\n' || c = .scalar '\x85' || c = .scalar '\u2028' || c = .scalar '\u2029'

/-- Whether a code point is a blank or ends a line. -/
def isBlankPoint (c : CodePoint) : Bool :=
  c = .scalar ' ' || c = .scalar '\t' || c = .scalar '\r' || c = .scalar '\x00' || endsLine c

/-- Whether a code point can be written without an escape. -/
def isOrdinary (c : CodePoint) : Bool :=
  c = .scalar '\n' || (0x20 ≤ c.val && c.val ≤ 0x7E)

/-- Characters that cannot begin a plain scalar. -/
def leading : List Char :=
  "#,[]\x7b\x7d&*!|>'\"%@\x60".toList

/-- Whether what follows a code point is a blank or nothing. -/
def blankFollows (rest : Text) : Bool :=
  rest.head?.all isBlankPoint

/-- Whether the first code point of a text can begin a plain scalar. -/
def beginsPlain : Text → Bool
  | [] => true
  | c :: rest =>
    !(c.char?.any leading.contains) &&
      !((c = .scalar '?' || c = .scalar ':' || c = .scalar '-') && blankFollows rest)

/-- Whether no colon in front of a blank and no number sign behind one would end a plain scalar;
`behindBlank` tells what precedes the text. -/
def staysPlain (behindBlank : Bool) : Text → Bool
  | [] => true
  | c :: rest =>
    !(c = .scalar ':' && blankFollows rest) && !(c = .scalar '#' && behindBlank) &&
      staysPlain (isBlankPoint c) rest

/-- Whether a space stands next to a line end, in the order that is asked for. -/
def hasNeighbours (first second : CodePoint → Bool) : Text → Bool
  | a :: b :: rest => (first a && second b) || hasNeighbours first second (b :: rest)
  | _ => false

/-- Whether a code point is a space. -/
def isSpace (c : CodePoint) : Bool :=
  c = .scalar ' '

/-- Whether a text begins like the marker of a document. -/
def beginsMarker (t : Text) : Bool :=
  t.take 3 = Text.ofString "---" || t.take 3 = Text.ofString "..."

/-- How a text is written. -/
inductive Style where
  | plain
  | single
  | double
  deriving DecidableEq

/-- Whether the characters of a text allow it to be written plain. -/
def allowsPlain (t : Text) : Bool :=
  t.all isOrdinary && !t.any endsLine && !(t.head?.any isSpace) && !(t.getLast?.any isSpace) &&
    !beginsMarker t && beginsPlain t && staysPlain true (t.drop 0)

/-- Whether the characters of a text allow it to be written between single quotes. -/
def allowsSingle (t : Text) : Bool :=
  t.all isOrdinary && !hasNeighbours endsLine isSpace t && !hasNeighbours isSpace endsLine t

/-- How a text is written. A text that would be read as something else is not written plain. -/
def style (t : Text) : Style :=
  if implicitTag t = .str ∧ allowsPlain t then .plain
  else if allowsSingle t then .single
  else .double

/-! ## Lines -/

/-- A text in the making: its code points, the last one first, and the column behind it. -/
structure Line where
  done : Text
  column : Nat

/-- A line with more text behind it. -/
def Line.add (t : Text) (line : Line) : Line :=
  ⟨t.reverse ++ line.done, line.column + t.length⟩

/-- A line end and spaces up to a column. -/
def Line.break (indent : Nat) (line : Line) : Line :=
  ⟨List.replicate indent (.scalar ' ') ++ .scalar '\n' :: line.done, indent⟩

/-- The runs of equal class in a text: each run with its class, in order. -/
def runs (classOf : CodePoint → Nat) : Text → List (Nat × Text)
  | [] => []
  | c :: rest =>
    match runs classOf rest with
    | (k, run) :: others =>
      if classOf c = k then (k, c :: run) :: others else (classOf c, [c]) :: (k, run) :: others
    | [] => [(classOf c, [c])]

/-- A text written plain: a single space behind the best width becomes a line end. -/
def addPlain (indent : Nat) (line : Line) : List (Nat × Text) → Line
  | [] => line
  | (k, run) :: rest =>
    if k = 0 ∧ run.length = 1 ∧ bestWidth < line.column then
      addPlain indent (line.break indent) rest
    else addPlain indent (line.add run) rest

/-- The line ends of a text inside single quotes: one more than they are, since one counts as a
space. -/
def addBreaks (indent : Nat) (run : Text) (line : Line) : Line :=
  let lines : Text := if run.head? = some (.scalar '\n') then .scalar '\n' :: run else run
  let ended : Line := ⟨lines.reverse ++ line.done, 0⟩
  ⟨List.replicate indent (.scalar ' ') ++ ended.done, indent⟩

/-- A text written between single quotes; `first` tells whether this is its first run. -/
def addSingle (indent : Nat) (first : Bool) (line : Line) : List (Nat × Text) → Line
  | [] => line
  | (k, run) :: rest =>
    if k = 0 then
      if run.length = 1 ∧ bestWidth < line.column ∧ !first ∧ !rest.isEmpty then
        addSingle indent false (line.break indent) rest
      else addSingle indent false (line.add run) rest
    else if k = 1 then addSingle indent false (addBreaks indent run line) rest
    else
      let doubled := run.flatMap fun c => if c = .scalar '\'' then [c, c] else [c]
      addSingle indent false (line.add doubled) rest

/-- The class of a code point: a space, a line end, or anything else. -/
def runClass (c : CodePoint) : Nat :=
  if isSpace c then 0 else if endsLine c then 1 else 2

/-- A number in capital hexadecimal digits. -/
def capitalHex (width n : Nat) : List Char :=
  (Text.hexadecimal width n).map Char.toUpper

/-- The letter that stands for a code point behind a backslash. -/
def escapeLetter? (n : Nat) : Option Char :=
  match n with
  | 0x00 => some '0'
  | 0x07 => some 'a'
  | 0x08 => some 'b'
  | 0x09 => some 't'
  | 0x0A => some 'n'
  | 0x0B => some 'v'
  | 0x0C => some 'f'
  | 0x0D => some 'r'
  | 0x1B => some 'e'
  | 0x22 => some '"'
  | 0x5C => some '\\'
  | 0x85 => some 'N'
  | 0xA0 => some '_'
  | 0x2028 => some 'L'
  | 0x2029 => some 'P'
  | _ => none

/-- The escape of a code point. -/
def escape (c : CodePoint) : Text :=
  match escapeLetter? c.val with
  | some letter => Text.ofChars ['\\', letter]
  | none =>
    Text.ofChars <|
      if c.val ≤ 0xFF then '\\' :: 'x' :: capitalHex 2 c.val
      else if c.val ≤ 0xFFFF then '\\' :: 'u' :: capitalHex 4 c.val
      else '\\' :: 'U' :: capitalHex 8 c.val

/-- Whether a code point is written as it is between double quotes. -/
def isUnescaped (c : CodePoint) : Bool :=
  0x20 ≤ c.val && c.val ≤ 0x7E && c ≠ .scalar '"' && c ≠ .scalar '\\'

/-- A text written between double quotes. Each step looks at one code point; `held` are those in front
of it that are not written yet, the last one first, and `position` and `size` tell where in the whole
text it stands. A line is broken at a space or behind an escape, which may end one column further. -/
def addDouble (indent size : Nat) (line : Line) (held : Text) (position : Nat) : Text → Line
  | [] => line.add held.reverse
  | c :: rest =>
    let (line, held, escaped) : Line × Text × Bool :=
      if isUnescaped c then (line, held, false)
      else ((line.add held.reverse).add (escape c), [], true)
    let breaks : Bool :=
      0 < position && position + 1 < size && (c = .scalar ' ' || escaped || held.isEmpty) &&
        bestWidth + (if escaped then 1 else 0) < line.column + held.length
    if breaks then
      let ended := (line.add (held.reverse ++ Text.ofString "\\")).break indent
      let next : Text := if escaped then rest else c :: rest
      let opened := if next.head? = some (.scalar ' ') then ended.add "\\" else ended
      addDouble indent size opened (if escaped then [] else [c]) (position + 1) rest
    else addDouble indent size line (if escaped then [] else c :: held) (position + 1) rest

/-- A text behind the name of a member; its further lines begin at the column `indent`. -/
def addText (indent : Nat) (t : Text) (line : Line) : Line :=
  match style t with
  | .plain => addPlain indent (line.add " ") (runs runClass t)
  | .single => (addSingle indent true (line.add " '") (runs runClass t)).add "'"
  | .double => (addDouble indent t.length (line.add " \"") [] 0 t).add "\""

mutual

/-- A value behind the name of a member at a level of nesting. -/
def add (level : Nat) (line : Line) : Output → Line
  | null => line.add " null"
  | bool value => line.add (if value then " true" else " false")
  | int value => line.add (" " ++ Text.ofInt value)
  | text value => addText (2 * level) value line
  | mapping members => if members.isEmpty then line.add " \x7b\x7d" else addMembers level line members

/-- The members of a mapping, each on a line of its own. -/
def addMembers (level : Nat) (line : Line) : List (Text × Output) → Line
  | [] => line
  | (name, value) :: rest =>
    let begun : Line := if line.done.isEmpty then line else line.break (2 * level)
    addMembers level (add (level + 1) (begun.add (name ++ ":")) value) rest

end

/-- The text of a mapping. -/
def write (members : List (Text × Output)) : Text :=
  (.scalar '\n' :: (addMembers 0 ⟨[], 0⟩ members).done).reverse

end Output

end Yaml

end ProgramInterface
