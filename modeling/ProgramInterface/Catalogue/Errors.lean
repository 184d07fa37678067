import ProgramInterface.Document
import ProgramInterface.Number.Literal
import ProgramInterface.Syntax.Query

/-!
# Error codes

Every integer literal above a threshold is an error code, repeats included.
-/

namespace ProgramInterface

/-- The values of the integer literals of a tree, in source order. -/
def literalValues (root : Node) : List Int :=
  (root.matching .integer).filterMap fun literal =>
    IntegerLiteral.value? (Text.ofString literal.text)

/-- The integer literals above a threshold. -/
def errorCodes (threshold : Int) (root : Node) : List Int :=
  (literalValues root).filter (threshold < ·)

/-- The error codes of a program, if each of them can be written. -/
def errorEntries? (threshold : Int) (root : Node) : Option (List ErrorEntry) :=
  (errorCodes threshold root).mapM ErrorEntry.ofCode?

end ProgramInterface
