import ProgramInterface.Log.Format
import ProgramInterface.Text.Case

/-!
# Routing of records

The router holds the least level of the records that are written and the handlers that write them: each
has a format and a stream. Setting it up finds the level first, then drops the handlers that are there,
and then adds one. It fails on a name that stands for no level. Handlers that stand above those of the
router get each record as well, and a record that a handler cannot write is reported as a failure.
-/

namespace ProgramInterface

namespace Log

/-! ## Levels by name -/

/-- A level as it is asked for. -/
inductive LevelChoice where
  | number (level : Int)
  | name (word : Text)

/-- The words for levels. -/
def levelWords : List (String × Int) :=
  [("CRITICAL", criticalLevel), ("FATAL", criticalLevel), ("ERROR", Level.error.number),
    ("WARN", Level.warning.number), ("WARNING", Level.warning.number),
    ("INFO", Level.info.number), ("DEBUG", Level.debug.number), ("NOTSET", 0)]

/-- The level that a word stands for. -/
def levelOf? (word : Text) : Option Int :=
  (levelWords.find? fun entry => Text.ofString entry.1 = word).map (·.2)

/-- A level whose name is looked up in upper case; an unknown name becomes a description. -/
def LevelChoice.lookUp : LevelChoice → LevelChoice
  | number level => number level
  | name word =>
    match levelOf? word.upper with
    | some level => number level
    | none => name ("Level " ++ word.upper)

/-- A word that stands for no level. -/
structure UnknownLevel where
  word : Text
  deriving DecidableEq

/-- The wording for a word that stands for no level. -/
def UnknownLevel.message (fault : UnknownLevel) : Text :=
  "Unknown level: " ++ fault.word.quoted

/-- The number of a level, if it is a number or a word for one. -/
def LevelChoice.check : LevelChoice → Except UnknownLevel Int
  | number level => .ok level
  | name word =>
    match levelOf? word with
    | some level => .ok level
    | none => .error ⟨word⟩

/-! ## The router -/

/-- A stream that is written to; streams are told apart by number. -/
structure Stream where
  number : Nat
  deriving DecidableEq

/-- The error output that a run of the program begins with. -/
def Stream.standard : Stream := ⟨0⟩

/-- What writes records: in a format, to a stream. -/
structure Handler where
  format : Format
  stream : Stream
  deriving DecidableEq

/-- What the router finds around it when a record is reported: the texts that each stream takes, the
error output, if there is one, and the handlers that stand above its own. -/
structure Surroundings where
  takes : Stream → Text → Bool
  errors : Option Stream
  outer : List Handler

/-- Every stream takes every text, and no other handler is there. -/
def Surroundings.ordinary : Surroundings :=
  ⟨fun _ _ => true, some .standard, []⟩

/-- What comes to a stream because of a record: a text, or the report of a failure to write one. The
text of such a report, which tells the message and where the failure happened, is left out. -/
inductive Delivery where
  | text (stream : Stream) (text : Text)
  | failure (stream : Stream)
  deriving DecidableEq

/-- What a handler does with a record. It writes a line to its stream; if the record has no form in its
format, or the stream does not take the line, it reports a failure to the error output. -/
def Handler.deliver? (handler : Handler) (around : Surroundings) (record : Record) :
    Option Delivery :=
  match handler.format.write? record with
  | some line =>
    if around.takes handler.stream (line ++ "\n") then some (.text handler.stream (line ++ "\n"))
    else around.errors.map .failure
  | none => around.errors.map .failure

/-- The least level of what is written, and what writes it; without handlers nothing is written. -/
structure Router where
  level : Int
  handlers : List Handler
  deriving DecidableEq

/-- A set-up as it is asked for, with the error output at that time. -/
structure SetUp where
  choice : LevelChoice
  format : Format
  stream : Option Stream
  errors : Stream

/-- The handler that a set-up adds; it writes to the error output unless a stream is given. -/
def SetUp.handler (call : SetUp) : Handler :=
  ⟨call.format, call.stream.getD call.errors⟩

namespace Router

/-- The router before it is set up. -/
def start : Router := ⟨0, []⟩

/-- A change of the router that may fail. -/
abbrev Change := ExceptT UnknownLevel (StateM Router)

/-- Sets the least level; an unknown one is refused. -/
def setLevel (choice : LevelChoice) : Change Unit := do
  let level ← ExceptT.mk (pure choice.check)
  modify fun router => { router with level }

/-- Drops all handlers. -/
def clearHandlers : Change Unit :=
  modify fun router => { router with handlers := [] }

/-- Adds a handler behind those that are there. -/
def addHandler (handler : Handler) : Change Unit :=
  modify fun router => { router with handlers := router.handlers ++ [handler] }

/-- Sets the router up. -/
def configure (call : SetUp) : Change Unit := do
  setLevel call.choice.lookUp
  clearHandlers
  addHandler call.handler

/-- What an attempt to set the router up gives, and the router afterwards. -/
def attempt (router : Router) (call : SetUp) : Except UnknownLevel Unit × Router :=
  (configure call).run.run router

/-- The router after an attempt to set it up for the error output. -/
def afterSetUp (router : Router) (choice : LevelChoice) (format : Format) : Router :=
  (router.attempt ⟨choice, format, none, .standard⟩).2

/-- The router that is set up for the error output, or the fault. -/
def setUp (choice : LevelChoice) (format : Format) : Except UnknownLevel Router :=
  let (outcome, router) := start.attempt ⟨choice, format, none, .standard⟩
  outcome.map fun _ => router

/-- The format that the first handler writes. -/
def format (router : Router) : Option Format :=
  router.handlers.head?.map (·.format)

/-- The least level that is written; zero stands for the level of warnings. -/
def leastLevel (router : Router) : Int :=
  if router.level = 0 then Level.warning.number else router.level

/-- Whether records of a level are written. -/
def admits (router : Router) (level : Int) : Bool :=
  0 < level && router.leastLevel ≤ level

/-- What comes to streams because of a record, handler by handler. -/
def deliveries (router : Router) (around : Surroundings) (record : Record) : List Delivery :=
  if router.admits record.level then
    (router.handlers ++ around.outer).filterMap (·.deliver? around record)
  else []

/-- What is written for a record to the error output, reports of failures aside. -/
def write (router : Router) (record : Record) : Text :=
  (router.deliveries .ordinary record).flatMap fun delivery =>
    match delivery with
    | .text stream text => if stream = .standard then text else []
    | .failure _ => []

/-- What shows of a record on the error output: warnings by their bare message, as long as the router
is not set up. -/
def report (router : Router) (record : Record) : Text :=
  if router.handlers.isEmpty then
    match record.message.text? with
    | some message => if router.admits record.level then message ++ "\n" else []
    | none => []
  else router.write record

end Router

/-! ## Facts by name -/

/-- The names that facts cannot have. -/
def reservedNames : List String :=
  ["message", "asctime", "name", "msg", "args", "levelname", "levelno", "pathname", "filename",
    "module", "exc_info", "exc_text", "stack_info", "lineno", "funcName", "created", "msecs",
    "relativeCreated", "thread", "threadName", "processName", "process"]

/-- The first reserved name among the names of values. -/
def reserved? (values : List (Text × Json.Value)) : Option Text :=
  (values.map (·.1)).find? fun name => reservedNames.any fun word => Text.ofString word = name

/-- The wording for a reserved name. -/
def reservedMessage (name : Text) : Text :=
  "Attempt to overwrite " ++ name.quoted ++ " in LogRecord"

/-- The facts among values with names, in the order in which facts are shown. -/
def factsOf (values : List (Text × Json.Value)) : List (Fact × Json.Value) :=
  Fact.all.filterMap fun fact => (Json.Value.lookup? fact.word values).map (fact, ·)

end Log

end ProgramInterface
