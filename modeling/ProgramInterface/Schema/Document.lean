import ProgramInterface.Schema.Check
import ProgramInterface.Text.Utf8

/-!
# The schema of descriptions

The schema of interface descriptions, and what the tools accept as arguments.
-/

namespace ProgramInterface

namespace Schema

/-- A member that must be there. -/
def member (wire : String) (schema : Schema) : Naming × Schema :=
  (⟨wire, none, false⟩, schema)

/-- A member that may be found by another name. -/
def renamed (wire other : String) (schema : Schema) : Naming × Schema :=
  (⟨wire, some other, false⟩, schema)

/-- A member that may be left out or null. -/
def optional (wire : String) (schema : Schema) : Naming × Schema :=
  (⟨wire, none, true⟩, nullable schema)

/-- A field or argument. -/
def field : Schema :=
  record "IdlField" [member "name" (text 0), member "type" type] []

/-- An account that an instruction expects. -/
def accountItem : Schema :=
  record "IdlAccountItem"
    [member "name" (text 0), renamed "isMut" "is_mut" truth,
      renamed "isSigner" "is_signer" truth] []

/-- An instruction. -/
def instruction : Schema :=
  record "IdlInstruction"
    [member "name" (text 0), member "accounts" (list accountItem), member "args" (list field)] []

/-- The layout of an account without its name. -/
def accountBody : Schema :=
  record "IdlAccountBody" [member "kind" (word ["struct"]), member "fields" (list field)] []

/-- The layout of an account. -/
def account : Schema :=
  record "IdlAccount" [member "name" (text 0), member "type" accountBody] []

/-- A variant of an enumeration. -/
def variant : Schema :=
  record "IdlEnumVariant" [member "name" (text 0), optional "fields" (list field)] []

/-- What a type is made of: a struct needs fields and an enumeration needs variants. -/
def typeBody : Schema :=
  record "IdlTypeBody"
    [member "kind" (word ["struct", "enum"]), optional "fields" (list field),
      optional "variants" (list variant)]
    [⟨"struct", "fields", "struct types require 'fields'"⟩,
      ⟨"enum", "variants", "enum types require 'variants'"⟩]

/-- A type with its name. -/
def typeEntry : Schema :=
  record "IdlTypeDef" [member "name" (text 0), member "type" typeBody] []

/-- An error code. -/
def errorEntry : Schema :=
  record "IdlErrorCode"
    [member "code" integer, member "name" (text 0), member "msg" (text 0)] []

/-- A whole description. -/
def document : Schema :=
  record "IdlDocumentModel"
    [member "version" (text 1), member "name" (text 1),
      member "instructions" (list instruction), member "accounts" (list account),
      member "types" (list typeEntry), member "errors" (list errorEntry)] []

/-- The normal form of a description that was read before. -/
def checkObject (value : Json.Value) : Checked :=
  document.check .object value

/-- The normal form of a description that comes as text. -/
def checkDocumentText (t : Text) : Checked :=
  if t.any CodePoint.isSurrogate then reject .notUnicode
  else
    match Json.read .strict t with
    | .ok value => document.check .text value
    | .error fault => reject (.invalidJson (fault.strictMessage t))

/-- The name of the model that descriptions are checked against. -/
def documentModel : String :=
  "IdlDocumentModel"

/-! ## Arguments of tools -/

/-- The greatest number of characters of a source or description that a tool accepts. -/
def sizeLimit : Nat :=
  1024 * 1024

/-- A source that a tool accepts. -/
def checkSource (value : Json.Value) : Checked :=
  under (.key "source") (checkText 1 (some sizeLimit) value)

/-- Whether a text holds nothing but white space. -/
def isEmptyText (t : Text) : Bool :=
  t.all CodePoint.isBlank

/-- A description that a tool accepts: an object with members, or a text that is neither empty nor
too long. -/
def checkDescription (value : Json.Value) : Checked :=
  under (.key "idl") <|
    match value with
    | .object members =>
      if members.isEmpty then reject (.rule "IDL object must not be empty") else .ok value
    | .text t =>
      if isEmptyText t then reject (.rule "IDL text must not be empty")
      else if sizeLimit < t.length then
        reject (.rule ("IDL text too large: " ++ toString t.length ++ " > " ++ toString sizeLimit))
      else .ok value
    | _ => .error [⟨[.key "dict[str,any]"], .notObject⟩, ⟨[.key "str"], .notText⟩]

/-- A number of faults in words, as the first line of a report. -/
def countMessage (model : String) (faults : List Fault) : String :=
  toString faults.length ++ " validation error" ++ (if faults.length = 1 then "" else "s") ++
    " for " ++ model

end Schema

end ProgramInterface
