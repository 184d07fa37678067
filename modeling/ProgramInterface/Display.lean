import ProgramInterface.Json.Value
import ProgramInterface.Text.Quoted

/-!
# Displayed values

How values show in messages: texts in quotes, `None`, `True` and `False` as words, lists in square
brackets, mappings and sets in braces.
-/

namespace ProgramInterface

/-- The form of a value in a message: a word or number, a text or bytes in quotes, or parts in
brackets. -/
inductive Display where
  | bare (t : Text)
  | text (t : Text)
  | bytes (data : List UInt8)
  | list (items : List Display)
  | tuple (items : List Display)
  | set (items : List Display)
  | mapping (members : List (Display × Display))
  deriving Inhabited

namespace Display

/-- One byte between quotes. -/
def quotedByte (quote : Char) (b : UInt8) : List Char :=
  let c := Char.ofNat b.toNat
  if c = quote ∨ c = '\\' then ['\\', c]
  else if c = '\t' then ['\\', 't']
  else if c = '\n' then ['\\', 'n']
  else if c = '\r' then ['\\', 'r']
  else if b < 0x20 ∨ 0x7F ≤ b then '\\' :: 'x' :: Text.hexadecimal 2 b.toNat
  else [c]

/-- Bytes in quotes, marked by a letter. -/
def quotedBytes (data : List UInt8) : Text :=
  let quote := if data.contains 0x27 && !data.contains 0x22 then '"' else '\''
  Text.ofChars ('b' :: quote :: data.flatMap (quotedByte quote) ++ [quote])

/-- Parts between brackets. -/
def enclose (opening closing : Char) (parts : List Text) : Text :=
  .scalar opening :: Text.joinWith ", " parts ++ [.scalar closing]

mutual

/-- The text of a value. -/
def write : Display → Text
  | bare t => t
  | text t => t.quoted
  | bytes data => quotedBytes data
  | list items => enclose '[' ']' (writeAll items)
  | tuple items =>
    match writeAll items with
    | [item] => .scalar '(' :: item ++ ",)"
    | parts => enclose '(' ')' parts
  | set items =>
    match writeAll items with
    | [] => "set()"
    | parts => enclose '\x7b' '\x7d' parts
  | mapping members => enclose '\x7b' '\x7d' (writeMembers members)

/-- The texts of some values. -/
def writeAll : List Display → List Text
  | [] => []
  | item :: rest => item.write :: writeAll rest

/-- The texts of the members of a mapping. -/
def writeMembers : List (Display × Display) → List Text
  | [] => []
  | (key, value) :: rest => (key.write ++ ": " ++ value.write) :: writeMembers rest

end

/-- A truth value as a word. -/
def ofBool (b : Bool) : Display :=
  bare (if b then "True" else "False")

/-- The absence of a value as a word. -/
def none : Display :=
  bare "None"

/-- An integer. -/
def ofInt (n : Int) : Display :=
  bare (Text.ofInt n)

/-- A floating-point number. -/
def ofFloat (x : Binary64) : Display :=
  bare x.display

/-- A value where it stands for itself in a message: a text without quotes, anything else as it
shows. -/
def plain : Display → Text
  | text t => t
  | shown => shown.write

end Display

namespace Json

mutual

/-- The form of a JSON value in a message. -/
def Value.display : Value → Display
  | .null => .none
  | .bool b => .ofBool b
  | .int n => .ofInt n
  | .float x => .ofFloat x
  | .text t => .text t
  | .array items => .list (displayItems items)
  | .object members => .mapping (displayMembers members)

/-- The forms of some values. -/
def displayItems : List Value → List Display
  | [] => []
  | item :: rest => item.display :: displayItems rest

/-- The forms of some members. -/
def displayMembers : List (Text × Value) → List (Display × Display)
  | [] => []
  | (name, value) :: rest => (.text name, value.display) :: displayMembers rest

end

end Json

end ProgramInterface
