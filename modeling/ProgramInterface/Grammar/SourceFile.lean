import ProgramInterface.Grammar.Items
import ProgramInterface.Syntax.Walk
import ProgramInterface.Text.Utf8

/-!
# Source files

The recursive parts of the grammar tied together, and the syntax tree of a whole source. A source is
a text or a sequence of bytes; it has a tree if and only if it can be written as, or is, UTF-8. What
cannot be read as a statement becomes error nodes.
-/

namespace ProgramInterface

namespace Grammar

open Reader

/-- A part of the grammar, given how the parts inside it are read. -/
def part (sub : SubReader) : Production → Reader Unit
  | .tokenTree => tokenTree sub
  | .type bounds => type sub bounds
  | .pattern alternatives => pattern sub alternatives
  | .expression structs => expression sub structs
  | .armValue => armValue sub
  | .block => block sub
  | .declaration => declaration sub

/-- A part of the grammar, with parts inside each other up to a depth. -/
def run : Nat → SubReader
  | 0, _ => refuse
  | depth + 1, production => part (run depth) production

/-- Steps over the line at the head of a source that names an interpreter. -/
def interpreterLine : Reader Unit :=
  fun draft =>
    match draft.rest with
    | '#' :: '!' :: rest =>
      if (rest.dropWhile Lexical.isGap).head? = some '[' then none
      else some ((), draft.push .token true none (Lexical.lineRest 2 rest))
    | _ => none

/-- The statements of a source file. -/
def statements (depth : Nat) : Reader Unit := do
  optional interpreterLine
  many do
    if ← atEnd then refuse
    orElse (statement (run depth)) stepOver

/-- The draft of a source in front of its first token: a byte order mark is counted but left out. -/
def draftOf (chars : List Char) : Draft :=
  let bound := chars.length + 1
  let draft : Draft :=
    match chars with
    | '\uFEFF' :: rest => ⟨rest, 3, 3, [], [], bound⟩
    | _ => ⟨chars, 0, 0, [], [], bound⟩
  draft.skipGap

/-- The greatest depth of parts inside each other in a source of some length. -/
def depthFor (length : Nat) : Nat :=
  8 * length + 64

/-- The syntax tree of a source file. -/
def sourceFile (source : String) : Node :=
  let chars := source.toList
  let children :=
    match statements (depthFor chars.length) (draftOf chars) with
    | some ((), draft) => draft.flush.done.reverse
    | none => []
  ⟨.sourceFile, true, none, 0, source.utf8ByteSize, source, children⟩

end Grammar

/-- Whether a tree holds an error node or a node for something missing. -/
def Node.hasErrors (root : Node) : Bool :=
  root.walk.any fun node => node.kind = .error || node.kind = .missing

/-- A source as it is handed in. -/
inductive Source where
  | text (text : Text)
  | bytes (bytes : List UInt8)

/-- Why a source has no syntax tree. -/
inductive SourceFault where
  | undecodable (fault : Utf8.DecodeFault)
  | unencodable (fault : Utf8.EncodeFault)

/-- The wording of a source fault. -/
def SourceFault.message : SourceFault → String
  | undecodable fault => "Source is not valid UTF-8: " ++ fault.message
  | unencodable fault => "Source cannot be encoded as UTF-8: " ++ fault.message

namespace Source

/-- The string that a source is. -/
def decode : Source → Except SourceFault String
  | text t => (Utf8.encode t).mapError .unencodable
  | bytes b => (Utf8.decode b).mapError .undecodable

/-- The syntax tree of a source. -/
def parse (source : Source) : Except SourceFault Node :=
  source.decode.map Grammar.sourceFile

end Source

end ProgramInterface
