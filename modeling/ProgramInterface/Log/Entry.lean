import ProgramInterface.Json.Value

/-!
# Log entries

What the parts of the program report while they work: a level, the part that reports, a message, and
facts in context.
-/

namespace ProgramInterface

namespace Log

/-- How grave an entry is. -/
inductive Level where
  | debug
  | info
  | warning
  | error
  deriving DecidableEq

/-- The number of a level; graver levels have greater numbers. -/
def Level.number : Level → Int
  | debug => 10
  | info => 20
  | warning => 30
  | error => 40

/-- The name of a level. -/
def Level.name : Level → String
  | debug => "DEBUG"
  | info => "INFO"
  | warning => "WARNING"
  | error => "ERROR"

/-- The facts that an entry may carry. -/
inductive Fact where
  | program
  | path
  | tool
  | catalogs
  deriving DecidableEq

/-- All facts, in the order in which they are shown. -/
def Fact.all : List Fact :=
  [program, path, tool, catalogs]

/-- The word for a fact. -/
def Fact.word : Fact → String
  | program => "program"
  | path => "path"
  | tool => "tool"
  | catalogs => "catalogs"

/-- One report of a part of the program. -/
structure Entry where
  level : Level
  part : String
  message : Text
  context : List (Fact × Json.Value)

/-- The name that stands in front of the names of all parts. -/
def rootName : String :=
  "arch_idl"

/-- The full name of a part. -/
def Entry.logger (entry : Entry) : String :=
  rootName ++ "." ++ entry.part

end Log

/-- A result together with what was reported on the way, in order. -/
structure Logged (α : Type) where
  value : α
  entries : List Log.Entry

namespace Logged

/-- A result with nothing reported. -/
protected def pure {α : Type} (value : α) : Logged α :=
  ⟨value, []⟩

/-- One computation after another; the entries of the first come first. -/
protected def bind {α β : Type} (first : Logged α) (next : α → Logged β) : Logged β :=
  let second := next first.value
  ⟨second.value, first.entries ++ second.entries⟩

instance : Monad Logged where
  pure := Logged.pure
  bind := Logged.bind

@[simp]
theorem value_pure {α : Type} (value : α) : (pure value : Logged α).value = value := rfl

@[simp]
theorem entries_pure {α : Type} (value : α) : (pure value : Logged α).entries = [] := rfl

@[simp]
theorem value_bind {α β : Type} (first : Logged α) (next : α → Logged β) :
    (first >>= next).value = (next first.value).value := rfl

@[simp]
theorem entries_bind {α β : Type} (first : Logged α) (next : α → Logged β) :
    (first >>= next).entries = first.entries ++ (next first.value).entries := rfl

/-- A report. -/
def report (level : Log.Level) (part : String) (message : Text)
    (context : List (Log.Fact × Json.Value)) : Logged Unit :=
  ⟨(), [⟨level, part, message, context⟩]⟩

@[simp]
theorem value_report {level : Log.Level} {part : String} {message : Text}
    {context : List (Log.Fact × Json.Value)} :
    (report level part message context).value = () := rfl

@[simp]
theorem entries_report {level : Log.Level} {part : String} {message : Text}
    {context : List (Log.Fact × Json.Value)} :
    (report level part message context).entries = [⟨level, part, message, context⟩] := rfl

end Logged

end ProgramInterface
