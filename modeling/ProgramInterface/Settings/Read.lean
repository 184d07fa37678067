import ProgramInterface.Home
import ProgramInterface.Settings.Check
import ProgramInterface.Yaml.Construction

/-!
# Settings from a file

A settings file is a YAML mapping with up to three sections. What a section leaves out keeps its
default value, and numbers may come in any form that stands for one. A file is used as a whole or not
at all: the first fault in it is the answer.
-/

namespace ProgramInterface

/-- Why a settings file cannot be used. -/
inductive ReadFault where
  | file (fault : FileTree.Fault)
  | tooLarge (size : Nat)
  | undecodable (fault : Utf8.DecodeFault)
  | yaml (fault : Yaml.Fault)
  | notMapping
  | notSection (name : String)
  | notFlag (name : String) (shown : Text)
  | badInteger (message : Text)
  | notInteger (kind : String)
  | infinite
  | notPath (kind : String)
  | bytesPath
  | noHome
  | unwritable

namespace ReadFault

/-- The wording of a fault of YAML. -/
def yamlMessage : Yaml.Fault → Text
  | .malformed => "YAMLError"
  | .value message => message
  | @Yaml.Fault.overflow .character => "Python int too large to convert to C int"
  | @Yaml.Fault.overflow .weight => "int too large to convert to float"
  | @Yaml.Fault.overflow .depth => "maximum recursion depth exceeded"
  | .unknownWord word => word.quoted
  | .emptyNumber => "string index out of range"
  | .notTimestamp => "'NoneType' object has no attribute 'groupdict'"

/-- The greatest number of bytes of a settings file. -/
def sizeLimit : Nat := 1024 * 1024

/-- The wording of a fault. -/
def message : ReadFault → Text
  | file fault => fault.message
  | tooLarge size => "Config file too large: " ++ toString size ++ " > " ++ toString sizeLimit
  | undecodable fault => fault.message
  | yaml fault => yamlMessage fault
  | notMapping => "Config file must be a YAML mapping"
  | notSection name => "'" ++ name ++ "' must be a mapping"
  | notFlag name shown => Text.ofString ("'" ++ name ++ "' must be true or false, got ") ++ shown
  | badInteger message => message
  | notInteger kind =>
    "int() argument must be a string, a bytes-like object or a real number, not '" ++ kind ++ "'"
  | infinite => "cannot convert float infinity to integer"
  | notPath kind => "expected str, bytes or os.PathLike object, not " ++ kind
  | bytesPath =>
    "argument should be a str object or an os.PathLike object returning str, not <class 'bytes'>"
  | noHome => "Could not determine home directory."
  | unwritable => IntegerText.writeFaultMessage

/-- Whether the default settings are used in place of a file with the fault. -/
def isForgiven : ReadFault → Bool
  | yaml .malformed => true
  | yaml (.value _) => true
  | yaml _ => false
  | infinite => false
  | noHome => false
  | _ => true

end ReadFault

namespace Yaml

/-- The word for the kind of a value that is no number, with the module it is part of if `full`. -/
def Value.kindWord (full : Bool) : Value → String
  | .null => "NoneType"
  | .bool _ => "bool"
  | .int _ => "int"
  | .float _ => "float"
  | .text _ => "str"
  | .bytes _ => "bytes"
  | .date _ _ _ => if full then "datetime.date" else "date"
  | .instant _ => if full then "datetime.datetime" else "datetime"
  | .list _ => "list"
  | .pair _ _ => "tuple"
  | .set _ => "set"
  | .mapping _ => "dict"
  | .loop isMapping => if isMapping then "dict" else "list"

/-- Whether a value counts as nothing where a directory is wanted. -/
def Value.isEmpty : Value → Bool
  | .null => true
  | .bool b => !b
  | .int n => n = 0
  | .float x => x.isZero
  | .text t => t.isEmpty
  | .bytes data => data.isEmpty
  | .list items => items.isEmpty
  | .set items => items.isEmpty
  | .mapping members => members.isEmpty
  | _ => false

mutual

/-- Whether a value can be shown, which takes every integer in it to have few enough digits. -/
def Value.isWritable : Value → Bool
  | .int n => IntegerText.fits n
  | .list items => areWritable items
  | .pair key value => key.isWritable && value.isWritable
  | .set items => areWritable items
  | .mapping members => membersWritable members
  | _ => true

/-- Whether some values can be shown. -/
def areWritable : List Value → Bool
  | [] => true
  | item :: rest => item.isWritable && areWritable rest

/-- Whether some members can be shown. -/
def membersWritable : List (Value × Value) → Bool
  | [] => true
  | (key, value) :: rest => key.isWritable && value.isWritable && membersWritable rest

end

/-- The integer that a value stands for. -/
def Value.toInteger : Value → Except ReadFault Int
  | .bool b => .ok (if b then 1 else 0)
  | .int n => .ok n
  | .float x =>
    match x, x.truncate? with
    | _, some n => .ok n
    | .infinite _, none => .error .infinite
    | _, none => .error (.badInteger "cannot convert float NaN to integer")
  | .text t => (IntegerText.read 10 t).mapError fun fault => .badInteger (fault.message 10 t)
  | .bytes data =>
    let plain := data.map fun b => if b < 0x80 then Char.ofNat b.toNat else '?'
    (IntegerText.readChars 10 plain).mapError fun fault =>
      .badInteger (fault.messageFor 10 (Display.quotedBytes data))
  | value => .error (.notInteger (value.kindWord true))

/-- The directory that a value names, if it names one. -/
def Value.toDirectory (home : Homes) (value : Value) : Except ReadFault (Option Path) :=
  if value.isEmpty then .ok none
  else
    match value with
    | .text t =>
      match home.expand (Path.ofText t) with
      | .ok path => .ok (some path)
      | .error .unknown => .error .noHome
      | .error (.unsought fault) => .error (.file fault)
    | .bytes _ => .error .bytesPath
    | value => .error (.notPath (value.kindWord false))

/-- The text that a value is shown as where a text is wanted. -/
def Value.toPlainText (value : Value) : Except ReadFault Text :=
  if value.isWritable then .ok value.plainText else .error .unwritable

/-- The members of a mapping with their keys. -/
abbrev Members := List (Value × Value)

/-- The members of a section, which is empty if it is left out or null. -/
def sectionOf (name : String) (root : Members) : Except ReadFault Members :=
  match Value.member? name root with
  | none => .ok []
  | some .null => .ok []
  | some (.mapping members) => .ok members
  | some _ => .error (.notSection name)

/-- A truth value in a section. -/
def flagOf (owner key : String) (members : Members) : Except ReadFault Bool :=
  match Value.member? key members with
  | none => .ok false
  | some (.bool b) => .ok b
  | some value =>
    if value.isWritable then .error (.notFlag (owner ++ "." ++ key) value.display.write)
    else .error .unwritable

/-- An integer in a section. -/
def integerOf (key : String) (default : Int) (members : Members) : Except ReadFault Int :=
  match Value.member? key members with
  | none => .ok default
  | some value => value.toInteger

end Yaml

namespace Settings

/-- The settings that three sections hold. -/
def ofSections (home : Homes) (root : Yaml.Members) : Except ReadFault Settings := do
  let generation ← Yaml.sectionOf "generation" root
  let threshold ← Yaml.integerOf "error_code_threshold" Settings.default.generation.threshold
    generation
  let structural ← Yaml.flagOf "generation" "structural_generics" generation
  let output ← Yaml.sectionOf "output" root
  let indent ← Yaml.integerOf "indent" Settings.default.output.indent output
  let directory ←
    match Yaml.Value.member? "directory" output with
    | none => pure none
    | some value => value.toDirectory home
  let logging ← Yaml.sectionOf "logging" root
  let level ←
    match Yaml.Value.member? "level" logging with
    | none => pure Settings.default.logging.level
    | some value => value.toPlainText
  let json ← Yaml.flagOf "logging" "json_format" logging
  return ⟨⟨threshold, structural⟩, ⟨indent, directory⟩, ⟨level, json⟩⟩

/-- The names of the sections. -/
def sectionNames : List Text :=
  ["generation", "output", "logging"]

/-- Keys in braces in the order of their written forms. -/
def showKeys (keys : List Yaml.Value) : Text :=
  let shown := keys.map fun key => key.display.write
  Display.enclose '\x7b' '\x7d' <| shown.mergeSort Text.precedes

/-- The settings that a YAML value holds, with a warning if it has other keys than the sections. -/
def ofValue (home : Homes) : Yaml.Value → Logged (Except ReadFault Settings)
  | .null => pure (.ok Settings.default)
  | .mapping members => do
    let unknown := (members.map (·.1)).filter fun key =>
      match key with
      | .text name => !sectionNames.contains name
      | _ => true
    if !unknown.isEmpty then
      Logged.report .warning settingsPart ("Unknown config keys ignored: " ++ showKeys unknown) []
    return ofSections home members
  | _ => pure (.error .notMapping)

/-- Characters with a line feed for every line end. -/
def plainLines : List Char → List Char
  | '\r' :: '\n' :: rest => '\n' :: plainLines rest
  | '\r' :: rest => '\n' :: plainLines rest
  | c :: rest => c :: plainLines rest
  | [] => []

/-- How the content of a settings file is read as a YAML value. -/
abbrev Reader := List UInt8 → Except ReadFault Yaml.Value

/-- The YAML value of the text that some bytes encode. -/
def yamlOf : Reader := fun content => do
  let chars ← (Utf8.decodeBlocks content).mapError .undecodable
  (Yaml.read (plainLines chars)).mapError .yaml

/-- The YAML value of a settings file, which must not be too large. -/
def valueOf (reader : Reader) (content : List UInt8) : Except ReadFault Yaml.Value :=
  if ReadFault.sizeLimit < content.length then .error (.tooLarge content.length)
  else reader content

/-- The settings that the file at a path holds, read in a given way. -/
def ofFileWith (reader : Reader) (home : Homes) (tree : FileTree) (path : Path) :
    Logged (Except ReadFault Settings) :=
  match tree.read path with
  | .error fault => pure (.error (.file fault))
  | .ok content =>
    match valueOf reader content with
    | .error fault => pure (.error fault)
    | .ok value => ofValue home value

/-- The settings that the file at a path holds. -/
def ofFile : Homes → FileTree → Path → Logged (Except ReadFault Settings) :=
  ofFileWith yamlOf

end Settings

end ProgramInterface
