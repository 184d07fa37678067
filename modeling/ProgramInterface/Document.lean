import ProgramInterface.Json.Writer
import ProgramInterface.Shape.Basic

/-!
# Interface descriptions

The description of one program: its instructions, account layouts, types and error codes, and the
JSON value and text that it is written as.
-/

namespace ProgramInterface

/-- A field or argument. -/
structure Field where
  name : Text
  type : Shape

/-- An account that an instruction expects, with its access flags. -/
structure AccountRef where
  name : Text
  isMutable : Bool
  isSigner : Bool

/-- An instruction. -/
structure Instruction where
  name : Text
  accounts : List AccountRef
  arguments : List Field

/-- The layout of an account. -/
structure AccountLayout where
  name : Text
  fields : List Field

/-- A variant of an enumeration; a unit variant has no list of fields. -/
structure Variant where
  name : Text
  fields : Option (List Field)

/-- What a type is made of. -/
inductive TypeBody where
  | struct (fields : List Field)
  | enum (variants : List Variant)

/-- A type with its name. -/
structure TypeEntry where
  name : Text
  body : TypeBody

/-- An error code. -/
structure ErrorEntry where
  code : Int
  name : Text
  message : Text

/-- The description of one program. -/
structure Document where
  version : Text
  name : Text
  instructions : List Instruction
  accounts : List AccountLayout
  types : List TypeEntry
  errors : List ErrorEntry

/-- The number of entries in each catalogue of a description. -/
structure Summary where
  instructions : Nat
  accounts : Nat
  types : Nat
  errors : Nat
  deriving DecidableEq

/-- The version of the format that descriptions are written in. -/
def formatVersion : Text :=
  "0.1.0"

/-- The value of a field. -/
def Field.toJson (field : Field) : Json.Value :=
  .record [("name", .text field.name), ("type", field.type.toJson)]

/-- The value of some fields. -/
def Field.listToJson (fields : List Field) : Json.Value :=
  .array (fields.map toJson)

/-- The value of an account that an instruction expects. -/
def AccountRef.toJson (account : AccountRef) : Json.Value :=
  .record [("name", .text account.name), ("isMut", .bool account.isMutable),
    ("isSigner", .bool account.isSigner)]

/-- The value of an instruction. -/
def Instruction.toJson (instruction : Instruction) : Json.Value :=
  .record [("name", .text instruction.name),
    ("accounts", .array (instruction.accounts.map AccountRef.toJson)),
    ("args", Field.listToJson instruction.arguments)]

/-- The value of a struct with some fields. -/
def structToJson (fields : List Field) : Json.Value :=
  .record [("kind", .ofString "struct"), ("fields", Field.listToJson fields)]

/-- The value of an account layout. -/
def AccountLayout.toJson (layout : AccountLayout) : Json.Value :=
  .record [("name", .text layout.name), ("type", structToJson layout.fields)]

/-- The value of a variant. -/
def Variant.toJson (variant : Variant) : Json.Value :=
  match variant.fields with
  | none => .record [("name", .text variant.name)]
  | some fields => .record [("name", .text variant.name), ("fields", Field.listToJson fields)]

/-- The value of what a type is made of. -/
def TypeBody.toJson : TypeBody → Json.Value
  | struct fields => structToJson fields
  | enum variants =>
    .record [("kind", .ofString "enum"), ("variants", .array (variants.map Variant.toJson))]

/-- The word for what a type is made of. -/
def TypeBody.word : TypeBody → String
  | struct _ => "struct"
  | enum _ => "enum"

/-- The value of a type with its name. -/
def TypeEntry.toJson (entry : TypeEntry) : Json.Value :=
  .record [("name", .text entry.name), ("type", entry.body.toJson)]

/-- The value of an error code. -/
def ErrorEntry.toJson (entry : ErrorEntry) : Json.Value :=
  .record [("code", .int entry.code), ("name", .text entry.name), ("msg", .text entry.message)]

/-- The entry for an error code, whose name and message show the code; a code with too many decimal
digits has none. -/
def ErrorEntry.ofCode? (code : Int) : Option ErrorEntry :=
  if IntegerText.fits code then
    some ⟨code, "CustomError" ++ Text.ofInt code, "Custom program error " ++ Text.ofInt code⟩
  else none

namespace Document

/-- The value of a description. -/
def toJson (document : Document) : Json.Value :=
  .record [("version", .text document.version), ("name", .text document.name),
    ("instructions", .array (document.instructions.map Instruction.toJson)),
    ("accounts", .array (document.accounts.map AccountLayout.toJson)),
    ("types", .array (document.types.map TypeEntry.toJson)),
    ("errors", .array (document.errors.map ErrorEntry.toJson))]

/-- How a description is laid out: no indentation, or one of zero, puts everything on one line. -/
def layout (indent : Option Int) : Json.Layout :=
  ⟨indent.filter (· ≠ 0), false⟩

/-- The JSON text of a description, if its codes can be written. -/
def encode? (indent : Option Int) (document : Document) : Option Text :=
  document.toJson.encode? (layout indent)

/-- The number of entries in each catalogue. -/
def summary (document : Document) : Summary :=
  ⟨document.instructions.length, document.accounts.length, document.types.length,
    document.errors.length⟩

end Document

namespace Summary

/-- The counts with the names of their catalogues. -/
def entries (summary : Summary) : List (String × Nat) :=
  [("instructions", summary.instructions), ("accounts", summary.accounts),
    ("types", summary.types), ("errors", summary.errors)]

/-- The value of the counts. -/
def toJson (summary : Summary) : Json.Value :=
  .record (summary.entries.map fun (name, count) => (name, .ofNat count))

end Summary

end ProgramInterface
