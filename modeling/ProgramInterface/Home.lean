import ProgramInterface.FileTree

/-!
# Home directories

A tilde at the beginning of a path stands for the home directory, and a tilde with a name behind it
for the home directory of the user with that name.
-/

namespace ProgramInterface

/-- The home directory, and what is entered for the users that have one of their own. -/
structure Homes extends Path where
  ofUser? : Text → Option Text

namespace Homes

/-- A home directory without users. -/
def ofPath (home : Path) : Homes := ⟨home, fun _ => none⟩

instance : Coe Path Homes := ⟨ofPath⟩

instance : Coe Homes Path := ⟨toPath⟩

/-- Why a path with a tilde leads nowhere: the user has no home directory, or cannot be looked up. -/
inductive Fault where
  | unknown
  | unsought (fault : FileTree.Fault)

/-- A text without strokes at its end. -/
def dropStrokes (t : Text) : Text :=
  (t.reverse.dropWhile (· = .scalar '/')).reverse

/-- The home directory that an entry stands for: one that is empty or all strokes for the root, and one
with a tilde at its beginning for none. -/
def directoryIn (entry : Text) : Except Fault Path :=
  match dropStrokes entry with
  | [] => .ok ⟨.absolute, []⟩
  | .scalar '~' :: _ => .error .unknown
  | kept => .ok (Path.ofText kept)

/-- The home directory of a user, or the own one without a name. -/
def directoryOf (homes : Homes) (user : Text) : Except Fault Path :=
  if user = [] then .ok homes.toPath
  else
    match FileTree.handingFault? user, homes.ofUser? user with
    | some fault, _ => .error (.unsought fault)
    | none, none => .error .unknown
    | none, some entry => directoryIn entry

/-- A path in which a tilde at the beginning stands for a home directory. -/
def expand (homes : Homes) (path : Path) : Except Fault Path :=
  match path.root, path.names with
  | .relative, (.scalar '~' :: user) :: names =>
    (homes.directoryOf user).map fun home => { home with names := home.names ++ names }
  | _, _ => .ok path

end Homes

end ProgramInterface
