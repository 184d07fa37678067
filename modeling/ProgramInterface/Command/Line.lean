import ProgramInterface.Text.Similar

/-!
# Command lines

The words of a command line are switches and arguments. A long switch begins with two strokes and may
hold its value behind an equality sign; short switches have one letter each and may be put together
behind one stroke, the last of them with its value. Two strokes alone end the switches.
-/

namespace ProgramInterface

namespace Command

/-- A switch: what it is for, its names, the word for its value if it takes one, and what it does. -/
structure Switch (κ : Type) where
  key : κ
  names : List String
  value : Option String
  help : String

/-- Why the words of a command line cannot be told apart. -/
inductive LineFault where
  | unknown (name : Text) (similar : List Text)
  | needsValue (name : Text)
  | takesNoValue (name : Text)

/-- Switches as they are given, each with its value, which is empty for one that takes none, and the
arguments. -/
structure Line (κ : Type) where
  given : List (κ × Text)
  arguments : List Text

namespace Line

/-- The value of a switch that was given, the last one if it was given more often. -/
def value? {κ : Type} [BEq κ] (key : κ) (line : Line κ) : Option Text :=
  line.given.reverse.lookup key

/-- Whether a switch was given. -/
def has {κ : Type} [BEq κ] (key : κ) (line : Line κ) : Bool :=
  line.given.any fun entry => entry.1 == key

/-- The switches that were given, each once, in the order in which they were first given. -/
def keys {κ : Type} [BEq κ] (line : Line κ) : List κ :=
  (line.given.map (·.1)).eraseDups

/-- The line with a switch in front. -/
def addSwitches {κ : Type} (entries : List (κ × Text)) (line : Line κ) : Line κ :=
  { line with given := entries ++ line.given }

/-- The line with an argument in front. -/
def addArgument {κ : Type} (argument : Text) (line : Line κ) : Line κ :=
  { line with arguments := argument :: line.arguments }

end Line

/-- What a word and perhaps the one behind it give: switches, and whether that one is used. -/
structure Step (κ : Type) where
  given : List (κ × Text)
  usesNext : Bool

/-- The switch with a name. -/
def find? {κ : Type} (switches : List (Switch κ)) (name : Text) : Option (Switch κ) :=
  switches.find? fun switch => switch.names.any fun word => Text.ofString word = name

/-- Whether a name begins with two strokes. -/
def isLong (name : Text) : Bool :=
  (Text.ofString "--").isPrefixOf name

/-- The names of switches that begin with two strokes. -/
def longNames {κ : Type} (switches : List (Switch κ)) : List Text :=
  (switches.flatMap fun switch => switch.names.map Text.ofString).filter isLong

/-- A word divided at its first equality sign. -/
def splitValue (word : Text) : Text × Option Text :=
  let name := word.takeWhile (· ≠ .scalar '=')
  match word.drop name.length with
  | [] => (name, none)
  | _ :: value => (name, some value)

/-- A switch with the value that stands with it or in the next word. -/
def withValue {κ : Type} (switch : Switch κ) (name : Text) (attached next : Option Text) :
    Except LineFault (Step κ) :=
  match attached, next with
  | some value, _ => .ok ⟨[(switch.key, value)], false⟩
  | none, some value => .ok ⟨[(switch.key, value)], true⟩
  | none, none => .error (.needsValue name)

/-- A word that begins with two strokes. -/
def longStep {κ : Type} (switches : List (Switch κ)) (word : Text) (next : Option Text) :
    Except LineFault (Step κ) :=
  let (name, attached) := splitValue word
  match find? switches name with
  | none => .error (.unknown name (Text.similarTo name (longNames switches)))
  | some switch =>
    match switch.value, attached with
    | some _, attached => withValue switch name attached next
    | none, some _ => .error (.takesNoValue name)
    | none, none => .ok ⟨[(switch.key, [])], false⟩

/-- The letters behind one stroke. -/
def shortStep {κ : Type} (switches : List (Switch κ)) (next : Option Text) :
    Text → Except LineFault (Step κ)
  | [] => .ok ⟨[], false⟩
  | letter :: rest =>
    let name : Text := [.scalar '-', letter]
    match find? switches name with
    | none => .error (.unknown name [])
    | some switch =>
      if switch.value.isSome then
        withValue switch name (if rest.isEmpty then none else some rest) next
      else do
        let step ← shortStep switches next rest
        return { step with given := (switch.key, []) :: step.given }

/-- The line that some words are. If `mixed`, switches may follow arguments; otherwise the first
argument ends them. -/
def readWords {κ : Type} (switches : List (Switch κ)) (mixed : Bool) :
    List Text → Except LineFault (Line κ)
  | [] => .ok ⟨[], []⟩
  | word :: rest =>
    if word = Text.ofString "--" then .ok ⟨[], rest⟩
    else
      match word with
      | .scalar '-' :: second :: letters => do
        let step ←
          if second = .scalar '-' then longStep switches word rest.head?
          else shortStep switches rest.head? (second :: letters)
        let line ← readWords switches mixed (if step.usesNext then rest.drop 1 else rest)
        return line.addSwitches step.given
      | _ =>
        if mixed then do
          let line ← readWords switches mixed rest
          return line.addArgument word
        else .ok ⟨[], word :: rest⟩
  termination_by words => words.length
  decreasing_by
    · split
      · rw [List.length_drop, List.length_cons]
        omega
      · exact Nat.lt_succ_self _
    · exact Nat.lt_succ_self _

end Command

end ProgramInterface
