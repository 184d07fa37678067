import ProgramInterface.Text.Basic

/-!
# Places in a YAML text

A place is the rest of a text together with how many characters precede it, in the text and in its
line. Here are also the faults that reading a text can end in and the classes of characters.
-/

namespace ProgramInterface

namespace Yaml

/-- What goes beyond the means of a reader: the number of a character, the weight of a place of a
number, or a text that is looked for in itself. -/
inductive Excess where
  | character
  | weight
  | depth
  deriving DecidableEq

/-- Why a text is not read: it is malformed, a value in it cannot be what its form or tag says, it goes
beyond the means of a reader, or it has a word that has no meaning. -/
inductive Fault where
  | malformed
  | value (message : Text)
  | overflow {excess : Excess}
  | unknownWord (word : Text)
  | emptyNumber
  | notTimestamp
  deriving DecidableEq

/-- A place in a text. -/
structure Place where
  rest : List Char
  index : Nat
  line : Nat
  column : Nat

/-- Whether a character ends a line. -/
def isBreak (c : Char) : Bool :=
  c = '\n' || c = '\r' || c = '\x85' || c = '\u2028' || c = '\u2029'

/-- Whether a character is a space or ends a line. -/
def isSpaceOrBreak (c : Char) : Bool :=
  c = ' ' || isBreak c

/-- Whether a character is a space, a tab, or ends a line. -/
def isBlank (c : Char) : Bool :=
  c = '\t' || isSpaceOrBreak c

/-- Whether a text is at its end or goes on with a blank. -/
def endsOrBlank (text : List Char) : Bool :=
  text.head?.all isBlank

/-- Whether a text is at its end or goes on with a space or a line end. -/
def endsOrSpace (text : List Char) : Bool :=
  text.head?.all isSpaceOrBreak

/-- Whether a text is at its end or at the end of a line. -/
def endsLine (text : List Char) : Bool :=
  text.head?.all isBreak

/-- Whether a line begins with the marker of the beginning or of the end of a document. -/
def atDocumentMarker (text : List Char) : Bool :=
  (text.take 3 = ['-', '-', '-'] || text.take 3 = ['.', '.', '.']) && endsOrBlank (text.drop 3)

namespace Place

/-- The place before the first character of a text. -/
def start (text : List Char) : Place :=
  ⟨text, 0, 0, 0⟩

/-- The first character of the rest. -/
def head? (place : Place) : Option Char :=
  place.rest.head?

/-- Whether the rest begins with a given character. -/
def sees (c : Char) (place : Place) : Bool :=
  place.rest.head? = some c

/-- The place behind the first character of the rest. -/
def step (place : Place) : Place :=
  match place.rest with
  | [] => place
  | c :: rest =>
    if isBreak c && !(c = '\r' && rest.head? = some '\n') then
      ⟨rest, place.index + 1, place.line + 1, 0⟩
    else
      ⟨rest, place.index + 1, place.line, if c = '\uFEFF' then place.column else place.column + 1⟩

/-- The place behind the first `n` characters of the rest. -/
def advance : Nat → Place → Place
  | 0, place => place
  | n + 1, place => advance n place.step

/-- The characters at the head of the rest that satisfy a condition, and the place behind them. -/
def takeWhile (p : Char → Bool) (place : Place) : List Char × Place :=
  let taken := place.rest.takeWhile p
  (taken, place.advance taken.length)

/-- The place behind the spaces at the head of the rest. -/
def skipSpaces (place : Place) : Place :=
  (place.takeWhile (· = ' ')).2

/-- The line end at the head of the rest, as it counts in a scalar, and the place behind it. -/
def lineBreak? (place : Place) : Option (Char × Place) :=
  match place.rest with
  | '\r' :: '\n' :: _ => some ('\n', place.advance 2)
  | c :: _ =>
    if c = '\n' ∨ c = '\r' ∨ c = '\x85' then some ('\n', place.step)
    else if c = '\u2028' ∨ c = '\u2029' then some (c, place.step)
    else none
  | [] => none

/-- The place behind the line end at the head of the rest, if there is one. -/
def skipBreak (place : Place) : Place :=
  (place.lineBreak?).elim place (·.2)

/-- The place behind a comment at the head of the rest, if there is one. -/
def skipComment (place : Place) : Place :=
  if place.sees '#' then (place.takeWhile fun c => !isBreak c).2 else place

end Place

end Yaml

end ProgramInterface
