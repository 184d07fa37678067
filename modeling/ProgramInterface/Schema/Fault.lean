import ProgramInterface.Text.Basic

/-!
# Faults of values against a schema

Where a value does not fit a schema, and why. Values come as text or as objects that were read
before; a few wordings differ between the two.
-/

namespace ProgramInterface

namespace Schema

/-- How a value came. -/
inductive Origin where
  | text
  | object
  deriving DecidableEq

/-- One step from a value to a part of it, or to an alternative that a part may follow. -/
inductive Step where
  | key (name : Text)
  | index (position : Nat)
  deriving DecidableEq

/-- Why a value does not fit. -/
inductive Cause where
  | missing
  | surplus
  | notText
  | tooShort (least : Nat)
  | tooLong (most : Nat)
  | notUnicode
  | notWord (choices : List String)
  | notList
  | notRecord (model : String)
  | notObject
  | notInteger
  | unreadInteger
  | integerTooLong
  | fraction
  | notFinite
  | notTruth
  | unreadTruth
  | nesting
  | rule (message : String)
  | invalidJson (message : String)
  deriving DecidableEq

/-- A cause and the steps to the part of the value that it concerns. -/
structure Fault where
  path : List Step
  cause : Cause
  deriving DecidableEq

/-- A fault of the value itself. -/
def Fault.ofCause (cause : Cause) : Fault :=
  ⟨[], cause⟩

/-- A fault of a part, seen from the value that holds the part. -/
def Fault.under (step : Step) (fault : Fault) : Fault :=
  { fault with path := step :: fault.path }

namespace Cause

/-- The word for a cause. -/
def word : Cause → String
  | missing => "missing"
  | surplus => "extra_forbidden"
  | notText => "string_type"
  | tooShort _ => "string_too_short"
  | tooLong _ => "string_too_long"
  | notUnicode => "string_unicode"
  | notWord _ => "literal_error"
  | notList => "list_type"
  | notRecord _ => "model_type"
  | notObject => "dict_type"
  | notInteger => "int_type"
  | unreadInteger => "int_parsing"
  | integerTooLong => "int_parsing_size"
  | fraction => "int_from_float"
  | notFinite => "finite_number"
  | notTruth => "bool_type"
  | unreadTruth => "bool_parsing"
  | nesting => "recursion_loop"
  | rule _ => "value_error"
  | invalidJson _ => "json_invalid"

/-- A number of characters in words. -/
def characters (n : Nat) : String :=
  toString n ++ (if n = 1 then " character" else " characters")

/-- Words in quotes, the last two joined by `or`. -/
def alternatives : List String → String
  | [] => ""
  | [w] => "'" ++ w ++ "'"
  | [v, w] => "'" ++ v ++ "' or '" ++ w ++ "'"
  | w :: rest => "'" ++ w ++ "', " ++ alternatives rest

/-- The wording of a cause. -/
def message (origin : Origin) : Cause → String
  | missing => "Field required"
  | surplus => "Extra inputs are not permitted"
  | notText => "Input should be a valid string"
  | tooShort least => "String should have at least " ++ characters least
  | tooLong most => "String should have at most " ++ characters most
  | notUnicode =>
    "Input should be a valid string, unable to parse raw data as a unicode string"
  | notWord choices => "Input should be " ++ alternatives choices
  | notList =>
    match origin with
    | .text => "Input should be a valid array"
    | .object => "Input should be a valid list"
  | notRecord model =>
    match origin with
    | .text => "Input should be an object"
    | .object => "Input should be a valid dictionary or instance of " ++ model
  | notObject => "Input should be a valid dictionary"
  | notInteger => "Input should be a valid integer"
  | unreadInteger => "Input should be a valid integer, unable to parse string as an integer"
  | integerTooLong => "Unable to parse input string as an integer, exceeded maximum size"
  | fraction => "Input should be a valid integer, got a number with a fractional part"
  | notFinite => "Input should be a finite number"
  | notTruth => "Input should be a valid boolean"
  | unreadTruth => "Input should be a valid boolean, unable to interpret input"
  | nesting => "Recursion error - cyclic reference detected"
  | rule text => "Value error, " ++ text
  | invalidJson text => "Invalid JSON: " ++ text

end Cause

end Schema

end ProgramInterface
