import ProgramInterface.Text.Class

/-!
# Quoted texts

A quoted text stands between single quotes, or between double quotes if it holds a single quote and
no double quote. Backslashes and the quote in use are escaped, and so is every code point without a
visible form, by number.
-/

namespace ProgramInterface

namespace Text

/-- The escape of a code point by its number, with two, four or eight hexadecimal digits. -/
def numericEscape (n : Nat) : List Char :=
  if n < 0x100 then '\\' :: 'x' :: hexadecimal 2 n
  else if n < 0x10000 then '\\' :: 'u' :: hexadecimal 4 n
  else '\\' :: 'U' :: hexadecimal 8 n

/-- One code point of a quoted text whose quotes are `quote`. -/
def quotedPoint (quote : Char) (c : CodePoint) : Text :=
  if c = .scalar quote ∨ c = .scalar '\\' then [.scalar '\\', c]
  else if c = .scalar '\n' then ofChars ['\\', 'n']
  else if c = .scalar '\r' then ofChars ['\\', 'r']
  else if c = .scalar '\t' then ofChars ['\\', 't']
  else if c.isVisible then [c]
  else ofChars (numericEscape c.val)

/-- The quote that a quoted text stands between. -/
def quoteFor (t : Text) : Char :=
  if t.contains (.scalar '\'') && !t.contains (.scalar '"') then '"' else '\''

/-- A text in quotes. -/
def quoted (t : Text) : Text :=
  let quote := quoteFor t
  .scalar quote :: t.flatMap (quotedPoint quote) ++ [.scalar quote]

end Text

end ProgramInterface
