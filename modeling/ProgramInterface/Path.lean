import ProgramInterface.Text.Basic

/-!
# Paths

A path is a root and a list of names. Reading a path leaves out empty names and single points, so
that paths which differ only in these are the same path.
-/

namespace ProgramInterface

/-- Where a path begins: at the current directory, at the root, or at a root of its own kind that
exactly two strokes name. -/
inductive PathRoot where
  | relative
  | absolute
  | doubled
  deriving DecidableEq

/-- A path. -/
structure Path where
  root : PathRoot
  names : List Text
  deriving DecidableEq

namespace Path

/-- The root of a text that is a path. -/
def rootOf : Text → PathRoot
  | .scalar '/' :: .scalar '/' :: .scalar '/' :: _ => .absolute
  | .scalar '/' :: .scalar '/' :: _ => .doubled
  | .scalar '/' :: _ => .absolute
  | _ => .relative

/-- The parts of a text between strokes, the last first; `part` is the part read so far, its last code
point first. -/
def splitStrokes (done : List Text) (part : Text) : Text → List Text
  | [] => part.reverse :: done
  | c :: rest =>
    if c = .scalar '/' then splitStrokes (part.reverse :: done) [] rest
    else splitStrokes done (c :: part) rest

/-- Whether a part of a text is a name of the path. -/
def isName (part : Text) : Bool :=
  part ≠ [] && part ≠ Text.ofString "."

/-- The path that a text is. -/
def ofText (t : Text) : Path :=
  ⟨rootOf t, (splitStrokes [] [] t).reverse.filter isName⟩

/-- The text of a root. -/
def rootText : PathRoot → Text
  | .relative => []
  | .absolute => "/"
  | .doubled => "//"

/-- The text of a path; the empty relative path is a point. -/
def text (path : Path) : Text :=
  match path.root, path.names with
  | .relative, [] => "."
  | root, names => rootText root ++ Text.joinWith "/" names

/-- The path without its last name. -/
def parent (path : Path) : Path :=
  { path with names := path.names.dropLast }

/-- A path seen from another one. -/
def append (base path : Path) : Path :=
  if path.root = .relative then { base with names := base.names ++ path.names } else path

instance : Append Path := ⟨append⟩

end Path

end ProgramInterface
