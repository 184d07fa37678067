import ProgramInterface.Catalogue.Fields
import ProgramInterface.Catalogue.ProgramName

/-!
# Instructions

A program with a function `entrypoint` has one instruction for every struct that derives both
serialization traits. All of them expect the same account, whose flags tell which checks the body of
that function asserts.
-/

namespace ProgramInterface

/-- The name of the function that a program is entered by. -/
def entryName : Text :=
  "entrypoint"

/-- Whether the text of a node contains a word. -/
def Node.mentions (word : String) (node : Node) : Bool :=
  Text.occursIn word.toList node.text.toList

/-- Whether an attribute derives both serialization traits. -/
def Node.derivesSerialization (marker : Node) : Bool :=
  marker.mentions "derive" && marker.mentions "BorshSerialize" &&
    marker.mentions "BorshDeserialize"

/-- Whether an attribute above an item derives both serialization traits. -/
def Placed.isSerializable (item : Placed) : Bool :=
  item.attributes.any Node.derivesSerialization

/-- The name of the instruction whose arguments a struct holds. -/
def instructionName (structName : Text) : Text :=
  ((Text.dropEnd? "Params" structName).getD structName).lowerFirst

/-- Whether an assertion in a function mentions a word. -/
def asserts (word : String) (function : Node) : Bool :=
  (((function.child? .body).getD function).matching .macroCall).any fun call =>
    call.mentions "assert!" && call.mentions word

/-- The account that every instruction expects. -/
def entryAccount (entry : Node) : AccountRef :=
  ⟨"account", asserts "is_writable" entry, asserts "is_signer" entry⟩

/-- The instruction that a struct stands for. -/
def instructionOf? (mode : FieldMode) (account : AccountRef) (item : Placed) : Option Instruction :=
  match item.node.child? .name with
  | none => none
  | some name =>
    if item.isSerializable then
      some ⟨instructionName name.content, [account], fieldsOf mode item.node⟩
    else none

/-- The instructions of a program. -/
def instructions (mode : FieldMode) (root : Node) : List Instruction :=
  match findFunction? root entryName with
  | none => []
  | some entry =>
    ((Placed.ofRoot root).matching .struct).filterMap
      (instructionOf? mode (entryAccount entry.node))

end ProgramInterface
