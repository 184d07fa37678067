import ProgramInterface.Json.Value
import ProgramInterface.Number.IntegerText

/-!
# Writing JSON

A value is written on one line or with one item or member a line. Quotation marks, backslashes and
control characters in strings are escaped; code points beyond ASCII are escaped only where the
layout asks for it. Integers with too many decimal digits cannot be written.
-/

namespace ProgramInterface

namespace Json

/-- How a value is laid out. With `indent` each item and member stands on a line of its own, moved
in by so many spaces a level (none, if the number is negative); with `asciiOnly` code points beyond
ASCII are escaped. -/
structure Layout where
  indent : Option Int
  asciiOnly : Bool

/-- Everything on one line, in ASCII. -/
def Layout.line : Layout := ⟨none, true⟩

/-- The escape of a number below `0x10000`. -/
def unitEscape (n : Nat) : List Char :=
  '\\' :: 'u' :: Text.hexadecimal 4 n

/-- The escape of a code point by number; beyond `0xFFFF` it takes a pair of surrogates. -/
def pointEscape (n : Nat) : List Char :=
  if n < 0x10000 then unitEscape n
  else
    let offset := n - 0x10000
    unitEscape (0xD800 + offset / 0x400) ++ unitEscape (0xDC00 + offset % 0x400)

/-- The letter that stands for a control character after a backslash. -/
def controlLetter? (n : Nat) : Option Char :=
  match n with
  | 0x08 => some 'b'
  | 0x09 => some 't'
  | 0x0A => some 'n'
  | 0x0C => some 'f'
  | 0x0D => some 'r'
  | _ => none

/-- One code point of a string. -/
def writePoint (asciiOnly : Bool) (c : CodePoint) : Text :=
  if c = .scalar '"' ∨ c = .scalar '\\' then [.scalar '\\', c]
  else
    match controlLetter? c.val with
    | some letter => Text.ofChars ['\\', letter]
    | none =>
      if c.val < 0x20 ∨ (asciiOnly ∧ 0x7F ≤ c.val) then Text.ofChars (pointEscape c.val) else [c]

/-- A text as a string. -/
def writeText (asciiOnly : Bool) (t : Text) : Text :=
  .scalar '"' :: t.flatMap (writePoint asciiOnly) ++ [.scalar '"']

/-- A floating-point number. -/
def writeFloat : Binary64 → Text
  | .nan => "NaN"
  | .infinite negative => if negative then "-Infinity" else "Infinity"
  | x => x.display

namespace Layout

/-- The line break in front of an item at a level. -/
def lineBreak (layout : Layout) (level : Nat) : Text :=
  match layout.indent with
  | none => []
  | some indent => .scalar '\n' :: List.replicate (level * indent.toNat) (.scalar ' ')

/-- What stands between two items at a level. -/
def separator (layout : Layout) (level : Nat) : Text :=
  match layout.indent with
  | none => ", "
  | some _ => .scalar ',' :: layout.lineBreak level

/-- Written items between two brackets. -/
def enclose (layout : Layout) (level : Nat) (opening closing : Char) (items : List Text) : Text :=
  if items.isEmpty then [.scalar opening, .scalar closing]
  else
    .scalar opening :: layout.lineBreak (level + 1) ++
      Text.joinWith (layout.separator (level + 1)) items ++
      layout.lineBreak level ++ [.scalar closing]

end Layout

mutual

/-- A value at a level of nesting. -/
def Value.write (layout : Layout) (level : Nat) : Value → Text
  | .null => "null"
  | .bool value => if value then "true" else "false"
  | .int value => Text.ofInt value
  | .float value => writeFloat value
  | .text value => writeText layout.asciiOnly value
  | .array items => layout.enclose level '[' ']' (writeItems layout (level + 1) items)
  | .object members => layout.enclose level '\x7b' '\x7d' (writeMembers layout (level + 1) members)

/-- The items of an array. -/
def writeItems (layout : Layout) (level : Nat) : List Value → List Text
  | [] => []
  | item :: rest => item.write layout level :: writeItems layout level rest

/-- The members of an object. -/
def writeMembers (layout : Layout) (level : Nat) : List (Text × Value) → List Text
  | [] => []
  | (name, value) :: rest =>
    (writeText layout.asciiOnly name ++ ": " ++ value.write layout level) ::
      writeMembers layout level rest

end

mutual

/-- Whether every integer in a value can be written. -/
def Value.isWritable : Value → Bool
  | .int value => IntegerText.fits value
  | .array items => areWritable items
  | .object members => membersWritable members
  | _ => true

/-- Whether every integer in some values can be written. -/
def areWritable : List Value → Bool
  | [] => true
  | item :: rest => item.isWritable && areWritable rest

/-- Whether every integer in some members can be written. -/
def membersWritable : List (Text × Value) → Bool
  | [] => true
  | (_, value) :: rest => value.isWritable && membersWritable rest

end

/-- The text of a value, if every integer in it can be written. -/
def Value.encode? (layout : Layout) (value : Value) : Option Text :=
  if value.isWritable then some (value.write layout 0) else none

end Json

end ProgramInterface
