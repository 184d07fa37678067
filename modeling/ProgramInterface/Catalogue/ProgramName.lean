import ProgramInterface.Shape.Normalize
import ProgramInterface.Syntax.Query

/-!
# Names of programs

A program with a function `process_instruction` is named after the module around that function, or
else after the first module of the source. Every other program is named `solana_program`.
-/

namespace ProgramInterface

/-- The name of a program without a name of its own. -/
def defaultProgramName : Text :=
  "solana_program"

/-- The place of the first function with a given name. -/
def findFunction? (root : Node) (name : Text) : Option Placed :=
  ((Placed.ofRoot root).matching .function).find? fun placed =>
    Text.ofString (placed.node.childText .name) = name

/-- The name of the function that handles instructions. -/
def handlerName : Text :=
  "process_instruction"

/-- The module that a program is named after. -/
def namingModule? (root : Node) : Option Node :=
  (findFunction? root handlerName).bind fun handler =>
    (handler.enclosing? .modItem).or (root.matching .module).head?

/-- The name of a program. -/
def programName (root : Node) : Text :=
  match namingModule? root with
  | none => defaultProgramName
  | some module =>
    let name := Text.ofString (module.childText .name)
    if name.isEmpty then defaultProgramName else name ++ "_program"

end ProgramInterface
