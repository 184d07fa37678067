import ProgramInterface.Log.Calendar
import ProgramInterface.Log.Entry
import ProgramInterface.Log.Template

/-!
# Formats of the log

A record is an entry with a time, whose message may still have places to be filled. It is written as a
line of text or as a JSON object on one line. A record whose message cannot be filled, whose values
cannot be written or whose time cannot be shown has no form.
-/

namespace ProgramInterface

namespace Log

/-- A failure that a record tells of: its kind and its wording. -/
structure Problem where
  kind : String
  message : Text

/-- What is written: a level by number, the full name of the part that reports, a message, facts in
context, perhaps a failure, and a time in seconds since 1970. -/
structure Record where
  level : Int
  logger : Text
  message : Message
  context : List (Fact × Json.Value)
  problem : Option Problem
  time : Int

/-- An entry at a time. -/
def Entry.at (time : Int) (entry : Entry) : Record :=
  ⟨entry.level.number, entry.logger, entry.message, entry.context, none, time⟩

/-- The level of records that are graver than errors. -/
def criticalLevel : Int := 50

/-- The levels that have names, gravest first. -/
def namedLevels : List (Int × String) :=
  [(criticalLevel, "CRITICAL"), (Level.error.number, Level.error.name),
    (Level.warning.number, Level.warning.name), (Level.info.number, Level.info.name),
    (Level.debug.number, Level.debug.name), (0, "NOTSET")]

/-- The name of a level given by number. -/
def levelText (level : Int) : Text :=
  match namedLevels.lookup level with
  | some name => name
  | none => "Level " ++ Text.ofInt level

/-- The wording of a failure behind its kind. -/
def Problem.text (problem : Problem) : Text :=
  if problem.message.isEmpty then problem.kind
  else problem.kind ++ ": " ++ problem.message

/-- The two formats. -/
inductive Format where
  | plain
  | json
  deriving DecidableEq

/-- A text that ends with a line end. -/
def endLine (t : Text) : Text :=
  if t.getLast? = some (.scalar '\n') then t else t ++ "\n"

/-- A fact with its word. -/
def factText (fact : Fact × Json.Value) : Text :=
  fact.1.word ++ "=" ++ fact.2.display.plain

/-- A record as a line of text; the facts stand at its end. -/
def plainLine? (record : Record) : Option Text := do
  let message ← record.message.text?
  let stamp ← Calendar.stamp? " " record.time
  if record.context.all fun fact => fact.2.isWritable then
    let head := stamp ++ Text.ofString " [" ++ levelText record.level ++ Text.ofString "] " ++
      record.logger ++ Text.ofString ": " ++ message
    let body := record.problem.elim head fun problem => endLine head ++ problem.text
    let facts : Text :=
      if record.context.isEmpty then []
      else " " ++ Text.joinWith " " (record.context.map factText)
    some (body ++ facts)
  else none

/-- The members of a record as a JSON object, given the texts of its time and of its message. -/
def members (stamp message : Text) (record : Record) : List (Text × Json.Value) :=
  let head : List (Text × Json.Value) :=
    [("timestamp", .text stamp), ("level", .text (levelText record.level)),
      ("logger", .text record.logger), ("message", .text message)]
  let facts := record.context.map fun fact => (Text.ofString fact.1.word, fact.2)
  let problem : List (Text × Json.Value) :=
    record.problem.toList.map fun problem => ("exception", .text problem.text)
  head ++ facts ++ problem

/-- A record as a JSON object on one line. -/
def jsonLine? (record : Record) : Option Text := do
  let stamp ← Calendar.stamp? "T" record.time
  let message ← record.message.text?
  Json.Value.encode? Json.Layout.line (.object (members stamp message record))

/-- A record in a format. -/
def Format.write? : Format → Record → Option Text
  | plain => plainLine?
  | json => jsonLine?

end Log

end ProgramInterface
