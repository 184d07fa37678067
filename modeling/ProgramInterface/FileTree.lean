import ProgramInterface.Path
import ProgramInterface.Text.Quoted
import ProgramInterface.Text.Utf8

/-!
# File trees

The files and directories that a run of the program sees and changes. Reading a file leaves the tree
as it is. Writing a file empties it first, so that a text which cannot be encoded leaves an empty
file.
-/

namespace ProgramInterface

/-- What stands at a place. -/
inductive Item where
  | file (content : List UInt8)
  | directory

/-- The names that lead from the root to a file or directory, without steps upwards. -/
abbrev Place := List Text

/-- Files and directories with their places, and the place of the current directory. -/
structure FileTree where
  current : Place
  items : List (Place × Item)

namespace FileTree

/-- Why the system refuses to do something with a path. -/
inductive Cause where
  | missing
  | alreadyThere
  | notDirectory
  | isDirectory
  | nameTooLong
  deriving DecidableEq

/-- The number of a cause. -/
def Cause.number : Cause → Nat
  | missing => 2
  | alreadyThere => 17
  | notDirectory => 20
  | isDirectory => 21
  | nameTooLong => 36

/-- The wording of a cause. -/
def Cause.message : Cause → String
  | missing => "No such file or directory"
  | alreadyThere => "File exists"
  | notDirectory => "Not a directory"
  | isDirectory => "Is a directory"
  | nameTooLong => "File name too long"

/-- Why something cannot be done with a path: the system refuses it, the path or what is to be written
cannot be encoded, or the path holds a null character. -/
inductive Fault where
  | refused (cause : Cause) (path : Text)
  | nullCharacter
  | unencodable (fault : Utf8.EncodeFault)

/-- The wording of a fault. -/
def Fault.message : Fault → Text
  | refused cause path =>
    "[Errno " ++ Text.ofNat cause.number ++ Text.ofString ("] " ++ cause.message ++ ": ") ++
      path.quoted
  | nullCharacter => "embedded null byte"
  | unencodable fault => fault.message

/-- Whether a code point is a surrogate that stands for a single byte of a name. -/
def standsForByte (c : CodePoint) : Bool :=
  c.isSurrogate && 0xDC80 ≤ c.val && c.val ≤ 0xDCFF

/-- What keeps a text from being handed to the system: a surrogate that stands for no byte, or a null
character. -/
def handingFault? (t : Text) : Option Fault :=
  match t.findIdx? fun c => c.isSurrogate && !standsForByte c with
  | some first =>
    let run := t.drop first
    some (.unencodable ⟨first, first + Utf8.surrogateRun run - 1, run.headD default⟩)
  | none => if t.contains (.scalar '\x00') then some .nullCharacter else none

/-- The tree without files whose current directory has a given place. -/
def empty (current : Place) : FileTree := ⟨current, []⟩

/-- What stands at a place; the current directory and those above it are always there. -/
def item? (place : Place) (tree : FileTree) : Option Item :=
  if place.isPrefixOf tree.current then some .directory else tree.items.lookup place

/-- The tree with an item at a place. -/
def put (place : Place) (item : Item) (tree : FileTree) : FileTree :=
  let items :=
    if (tree.items.lookup place).isSome then
      tree.items.map fun entry => if entry.1 = place then (place, item) else entry
    else tree.items ++ [(place, item)]
  { tree with items }

/-- The greatest number of bytes of a name. -/
def nameLimit : Nat := 255

/-- The number of bytes that is too many for a path. -/
def pathLimit : Nat := 4096

/-- The number of bytes of a text whose surrogates stand for single bytes. -/
def byteLength (t : Text) : Nat :=
  (Utf8.encodeChars (t.filterMap CodePoint.char?)).length + t.countP CodePoint.isSurrogate

/-- The place that names lead to from a place. Every name but the last must lead to a directory. -/
def walk (tree : FileTree) (place : Place) : List Text → Except Cause Place
  | [] => .ok place
  | name :: rest =>
    match tree.item? place with
    | none => .error .missing
    | some (.file _) => .error .notDirectory
    | some .directory =>
      if nameLimit < byteLength name then .error .nameTooLong
      else if name = Text.ofString ".." then tree.walk place.dropLast rest
      else tree.walk (place ++ [name]) rest

/-- The place where a path begins. -/
def origin (tree : FileTree) (path : Path) : Place :=
  if path.root = .relative then tree.current else []

/-- The place that a path leads to, which may be empty. -/
def locate (tree : FileTree) (path : Path) : Except Fault Place :=
  let text := path.text
  match handingFault? text with
  | some fault => .error fault
  | none =>
    if pathLimit ≤ byteLength text then .error (.refused .nameTooLong text)
    else (tree.walk (tree.origin path) path.names).mapError fun cause => .refused cause text

/-- What a path leads to. -/
def find (tree : FileTree) (path : Path) : Except Fault Item := do
  let place ← tree.locate path
  match tree.item? place with
  | some item => return item
  | none => throw (.refused .missing path.text)

/-- The content of the file that a path leads to. -/
def read (tree : FileTree) (path : Path) : Except Fault (List UInt8) := do
  match ← tree.find path with
  | .file content => return content
  | .directory => throw (.refused .isDirectory path.text)

/-- Whether a fault tells that nothing stands where a path leads. -/
def Fault.meansAbsent : Fault → Bool
  | refused .missing _ => true
  | refused .notDirectory _ => true
  | refused _ _ => false
  | nullCharacter => true
  | unencodable _ => true

/-- Whether something stands where a path leads. -/
def holds (tree : FileTree) (path : Path) : Except Fault Bool :=
  match tree.find path with
  | .ok _ => .ok true
  | .error fault => if fault.meansAbsent then .ok false else .error fault

/-- Whether a path leads to a directory. -/
def isDirectory (tree : FileTree) (path : Path) : Bool :=
  match tree.find path with
  | .ok .directory => true
  | _ => false

end FileTree

/-- Something done with a file tree that may fail; what was done before a failure stays done. -/
abbrev FileAction := ExceptT FileTree.Fault (StateM FileTree)

namespace FileAction

/-- A question about the tree. -/
def ask {α : Type} (question : FileTree → Except FileTree.Fault α) : FileAction α := do
  liftExcept (question (← get))
where
  /-- An answer or a failure as an action. -/
  liftExcept (answer : Except FileTree.Fault α) : FileAction α :=
    match answer with
    | .ok a => pure a
    | .error fault => throw fault

/-- Makes one directory, whose parent is there. -/
def makeOne (path : Path) : FileAction Unit := do
  let place ← ask (·.locate path)
  match (← get).item? place with
  | some _ => throw (.refused .alreadyThere path.text)
  | none => modify (·.put place .directory)

/-- Nothing, if a path leads to a directory, whatever refusal that met; otherwise the refusal. -/
def unlessDirectory (path : Path) (fault : FileTree.Fault) : FileAction Unit := do
  match fault with
  | .refused _ _ => if (← get).isDirectory path then return else throw fault
  | _ => throw fault

/-- Makes the directory at a root followed by names, the last one first, and the directories above
it. -/
def makeAt (root : PathRoot) : List Text → FileAction Unit
  | [] => makeOne ⟨root, []⟩ |>.tryCatch (unlessDirectory ⟨root, []⟩)
  | name :: above =>
    let path : Path := ⟨root, (name :: above).reverse⟩
    tryCatch (makeOne path) fun fault =>
      match fault with
      | .refused .missing _ => do
        makeAt root above
        tryCatch (makeOne path) (unlessDirectory path)
      | fault => unlessDirectory path fault

/-- Makes a directory and the directories above it that are not there yet. -/
def makeDirectory (path : Path) : FileAction Unit :=
  makeAt path.root path.names.reverse

/-- Empties the file at a path, or makes an empty one; gives its place. -/
def clear (path : Path) : FileAction Place := do
  let place ← ask (·.locate path)
  match (← get).item? place with
  | some .directory => throw (.refused .isDirectory path.text)
  | _ =>
    modify (·.put place (.file []))
    return place

/-- Writes a text to the file at a path, in place of what the file held. -/
def write (path : Path) (content : Text) : FileAction Unit := do
  let place ← clear path
  match Utf8.encodeFault? content with
  | some fault => throw (.unencodable fault)
  | none =>
    modify (·.put place (.file (Utf8.encodeChars (content.filterMap CodePoint.char?))))

end FileAction

end ProgramInterface
