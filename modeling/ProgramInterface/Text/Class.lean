import ProgramInterface.Text.Basic
import ProgramInterface.Text.HiddenTable
import ProgramInterface.Text.IdentifierTable

/-!
# Classes of code points

White space, decimal digits, the characters of names, and the code points that have a visible form.
-/

namespace ProgramInterface

/-- Whether a number lies in one of the ranges of a rising list, both ends included. -/
def inRanges : List (Nat × Nat) → Nat → Bool
  | [], _ => false
  | (first, last) :: rest, n => if n < first then false else n ≤ last || inRanges rest n

namespace CodePoint

/-- The ranges of white space, the information separators included. -/
def blankRanges : List (Nat × Nat) :=
  [(0x09, 0x0D), (0x1C, 0x20), (0x85, 0x85), (0xA0, 0xA0), (0x1680, 0x1680), (0x2000, 0x200A),
   (0x2028, 0x2029), (0x202F, 0x202F), (0x205F, 0x205F), (0x3000, 0x3000)]

/-- Whether a code point is white space. -/
def isBlank (c : CodePoint) : Bool :=
  inRanges blankRanges c.val

/-- Whether a code point is white space other than an information separator. -/
def isSpace (c : CodePoint) : Bool :=
  c.isBlank && !(0x1C ≤ c.val && c.val ≤ 0x1F)

/-- The zeros of the scripts that write decimal numbers; nine more digits follow each of them. -/
def digitZeros : List Nat :=
  [0x30, 0x660, 0x6F0, 0x7C0, 0x966, 0x9E6, 0xA66, 0xAE6, 0xB66, 0xBE6, 0xC66, 0xCE6, 0xD66, 0xDE6,
   0xE50, 0xED0, 0xF20, 0x1040, 0x1090, 0x17E0, 0x1810, 0x1946, 0x19D0, 0x1A80, 0x1A90, 0x1B50,
   0x1BB0, 0x1C40, 0x1C50, 0xA620, 0xA8D0, 0xA900, 0xA9D0, 0xA9F0, 0xAA50, 0xABF0, 0xFF10, 0x104A0,
   0x10D30, 0x11066, 0x110F0, 0x11136, 0x111D0, 0x112F0, 0x11450, 0x114D0, 0x11650, 0x116C0,
   0x11730, 0x118E0, 0x11950, 0x11C50, 0x11D50, 0x11DA0, 0x16A60, 0x16AC0, 0x16B50, 0x1D7CE,
   0x1D7D8, 0x1D7E2, 0x1D7EC, 0x1D7F6, 0x1E140, 0x1E2F0, 0x1E950, 0x1FBF0]

/-- The value of a decimal digit of any script. -/
def digit? (c : CodePoint) : Option Nat :=
  (digitZeros.find? fun start => start ≤ c.val && c.val ≤ start + 9).map (c.val - ·)

/-- Whether a code point has a visible form, so that a quoted text shows it as it is. -/
def isVisible (c : CodePoint) : Bool :=
  !inRanges HiddenTable.ranges c.val

end CodePoint

/-- Whether a character may begin a name. -/
def isNameStart (c : Char) : Bool :=
  if c.toNat < 0x80 then c.isAlpha || c = '_'
  else inRanges IdentifierTable.start c.toNat

/-- Whether a character may go on with a name. -/
def isNameNext (c : Char) : Bool :=
  if c.toNat < 0x80 then c.isAlphanum || c = '_'
  else inRanges IdentifierTable.next c.toNat

end ProgramInterface
