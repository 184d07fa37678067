import ProgramInterface.Document
import ProgramInterface.FileTree
import ProgramInterface.Log.Entry

/-!
# Publishing descriptions

A description is published as a file of a directory. The file is named for the program and holds the
JSON text of the description and a line end.
-/

namespace ProgramInterface

/-- Why a description is not published: something is wrong with the file, or a number in the
description has too many digits. -/
inductive PublishFault where
  | file (fault : FileTree.Fault)
  | unwritable

/-- The wording of a fault. -/
def PublishFault.message : PublishFault → Text
  | file fault => fault.message
  | unwritable => IntegerText.writeFaultMessage

namespace Document

/-- The file of a directory that a description is published as. -/
def fileIn (directory : Path) (document : Document) : Path :=
  directory ++ Path.ofText (document.name ++ ".json")

/-- The text that a description is published as. -/
def fileText? (indent : Int) (document : Document) : Option Text :=
  (document.encode? (some indent)).map (· ++ "\n")

/-- Writes a description to a file, which is emptied before it is known whether the description can
be written. -/
def writeFile (path : Path) (indent : Int) (document : Document) :
    ExceptT PublishFault (StateM FileTree) Unit :=
  match document.fileText? indent with
  | some text => ExceptT.adapt .file (FileAction.write path text)
  | none => do
    let _ ← ExceptT.adapt PublishFault.file (FileAction.clear path)
    throw .unwritable

/-- Publishes a description in a directory, which is made first, and reports it; gives the file and
the tree afterwards. -/
def publish (tree : FileTree) (directory : Path) (indent : Int) (document : Document) :
    Logged (Except PublishFault Path) × FileTree :=
  let path := document.fileIn directory
  let action : ExceptT PublishFault (StateM FileTree) Unit := do
    ExceptT.adapt .file (FileAction.makeDirectory directory)
    document.writeFile path indent
  let (outcome, after) := action.run.run tree
  match outcome with
  | .error fault => (pure (.error fault), after)
  | .ok () =>
    (do
      Logged.report .info "generator" ("Wrote IDL to " ++ path.text)
        [(.program, .text document.name), (.path, .text path.text)]
      return .ok path, after)

end Document

end ProgramInterface
