import ProgramInterface.Number.IntegerText

/-!
# Faults of JSON texts

A fault says what was wanted and where. Two wordings exist: the plain one counts lines, columns and
positions in code points, the strict one counts columns in bytes and tells an early end of the text
from a wrong character.
-/

namespace ProgramInterface

namespace Json

/-- What a place of a text lacks or what is wrong there. Of the wants, `firstItem` and `firstName`
stand just behind an opening bracket, `nextItem` and `nextName` behind a comma, and `itemEnd` and
`memberEnd` behind an item or member. -/
inductive Cause where
  | value
  | nesting
  | firstItem
  | nextItem
  | itemEnd
  | firstName
  | nextName
  | colon
  | memberEnd
  | word
  | digit
  | digitLimit (digits : Nat)
  | closingQuote
  | escape
  | hexEscape
  | loneSurrogate
  | surrogatePair
  | control
  | ending
  deriving DecidableEq

/-- A fault: its cause, the rest of the text from the place where reading stopped, and the rest of
the text from the beginning of the word, number or string it lies in. -/
structure Fault where
  cause : Cause
  rest : Text
  start : Text
  deriving DecidableEq

/-- What is wrong with a place, its word, number or string beginning there. -/
def Fault.here (cause : Cause) (rest : Text) : Fault :=
  ⟨cause, rest, rest⟩

namespace Cause

/-- The plain wording of a cause. -/
def plainMessage : Cause → String
  | value | nesting | firstItem | nextItem | word | digit => "Expecting value"
  | itemEnd | memberEnd => "Expecting ',' delimiter"
  | firstName | nextName => "Expecting property name enclosed in double quotes"
  | colon => "Expecting ':' delimiter"
  | digitLimit digits =>
    IntegerText.limitMessage ++ ": value has " ++ toString digits ++ " digits" ++
      IntegerText.limitAdvice
  | closingQuote => "Unterminated string starting at"
  | escape => "Invalid \\escape"
  | hexEscape | loneSurrogate | surrogatePair => "Invalid \\uXXXX escape"
  | control => "Invalid control character at"
  | ending => "Extra data"

/-- The strict wording of a cause where the text ends. -/
def endMessage : Cause → String
  | firstItem | itemEnd => "EOF while parsing a list"
  | firstName | colon | memberEnd => "EOF while parsing an object"
  | closingQuote | escape | hexEscape | loneSurrogate | surrogatePair | control =>
    "EOF while parsing a string"
  | digitLimit _ => "number out of range"
  | _ => "EOF while parsing a value"

/-- The strict wording of a cause in front of a character. -/
def strictMessage (c : CodePoint) : Cause → String
  | value | firstItem => "expected value"
  | nesting => "recursion limit exceeded"
  | nextItem => if c = .scalar ']' then "trailing comma" else "expected value"
  | itemEnd => "expected `,` or `]`"
  | firstName => "key must be a string"
  | nextName => if c = .scalar '\x7d' then "trailing comma" else "key must be a string"
  | colon => "expected `:`"
  | memberEnd => "expected `,` or `\x7d`"
  | word => "expected ident"
  | digit => "invalid number"
  | digitLimit _ => "number out of range"
  | closingQuote => "EOF while parsing a string"
  | escape | hexEscape => "invalid escape"
  | loneSurrogate => "lone leading surrogate in hex escape"
  | surrogatePair => "unexpected end of hex escape"
  | control => "control character (\\u0000-\\u001F) found while parsing a string"
  | ending => "trailing characters"

end Cause

/-- The number of bytes of a code point in UTF-8. -/
def byteWidth (c : CodePoint) : Nat :=
  if c.val < 0x80 then 1 else if c.val < 0x800 then 2 else if c.val < 0x10000 then 3 else 4

/-- The number of bytes of a text in UTF-8. -/
def byteLength : Text → Nat
  | [] => 0
  | c :: t => byteWidth c + byteLength t

/-- The number of line ends in a text, and the width of what follows the last of them. -/
def linePosition (width : CodePoint → Nat) (t : Text) : Nat × Nat :=
  t.foldl (fun (lines, column) c =>
    if c = CodePoint.scalar '\n' then (lines + 1, 0) else (lines, column + width c)) (0, 0)

/-- The part of a text in front of one of its endings. -/
def consumed (whole rest : Text) : Text :=
  whole.take (whole.length - rest.length)

namespace Fault

/-- Where the plain wording places a fault. -/
def plainRest (fault : Fault) : Text :=
  match fault.cause with
  | .word | .digit | .closingQuote | .escape | .hexEscape => fault.start
  | _ => fault.rest

/-- The plain wording of a fault in a text. -/
def plainMessage (whole : Text) (fault : Fault) : String :=
  match fault.cause with
  | .digitLimit _ => fault.cause.plainMessage
  | _ =>
    let before := consumed whole fault.plainRest
    let (lines, column) := linePosition (fun _ => 1) before
    fault.cause.plainMessage ++ ": line " ++ toString (lines + 1) ++ " column " ++
      toString (column + 1) ++ " (char " ++ toString before.length ++ ")"

/-- The strict wording of a fault in a text. A fault at the end has the column of the last byte, one
in front of a character the column of its first byte; a line end counts as the start of the next
line. -/
def strictMessage (whole : Text) (fault : Fault) : String :=
  let (lines, column) := linePosition byteWidth (consumed whole fault.rest)
  let (message, lines, column) :=
    match fault.rest with
    | [] => (fault.cause.endMessage, lines, column)
    | c :: _ =>
      let message := fault.cause.strictMessage c
      if c = CodePoint.scalar '\n' then (message, lines + 1, 0) else (message, lines, column + 1)
  message ++ " at line " ++ toString (lines + 1) ++ " column " ++ toString column

end Fault

end Json

end ProgramInterface
