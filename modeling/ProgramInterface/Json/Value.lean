import ProgramInterface.Number.Binary64
import ProgramInterface.Text.Basic

/-!
# JSON values

Objects keep the order of their members. A value read from text may hold a member name twice;
`Value.member?` then finds the last one.
-/

namespace ProgramInterface

namespace Json

/-- A JSON value; integers and floating-point numbers are told apart. -/
inductive Value where
  | null
  | bool (value : Bool)
  | int (value : Int)
  | float (value : Binary64)
  | text (value : Text)
  | array (items : List Value)
  | object (members : List (Text × Value))
  deriving Inhabited, BEq

namespace Value

/-- The value of the last member with a given name. -/
def lookup? (name : Text) : List (Text × Value) → Option Value
  | [] => none
  | (key, value) :: rest =>
    match lookup? name rest with
    | some found => some found
    | none => if key = name then some value else none

/-- The value of a member of an object. -/
def member? (name : Text) : Value → Option Value
  | object members => lookup? name members
  | _ => none

/-- The items of an array. -/
def items? : Value → Option (List Value)
  | array items => some items
  | _ => none

/-- The members of an object. -/
def members? : Value → Option (List (Text × Value))
  | object members => some members
  | _ => none

/-- The text that a value is. -/
def text? : Value → Option Text
  | text value => some value
  | _ => none

/-- The integer that a value is. -/
def int? : Value → Option Int
  | int value => some value
  | _ => none

/-- The truth value that a value is. -/
def bool? : Value → Option Bool
  | bool value => some value
  | _ => none

/-- The value of a string. -/
def ofString (s : String) : Value :=
  text (Text.ofString s)

/-- The value of a natural number. -/
def ofNat (n : Nat) : Value :=
  int n

/-- An object whose member names are strings. -/
def record (members : List (String × Value)) : Value :=
  object (members.map fun (name, value) => (Text.ofString name, value))

/-- A member added to a list of members: a name that is there keeps its place and takes the new
value. -/
def put (members : List (Text × Value)) (name : Text) (value : Value) : List (Text × Value) :=
  if members.any fun m => m.1 == name then
    members.map fun m => if m.1 = name then (name, value) else m
  else members ++ [(name, value)]

/-- The members of a list with each name once: it stands at its first place with its last value. -/
def lastWins (members : List (Text × Value)) : List (Text × Value) :=
  members.foldl (fun kept m => put kept m.1 m.2) []

end Value

end Json

end ProgramInterface
