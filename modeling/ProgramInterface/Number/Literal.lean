import ProgramInterface.Number.IntegerText

/-!
# Integer literals

The value of an integer literal: underscores are left out, then the integer type behind the digits,
and a mark in front of them names base 16, 8 or 2. A literal that is no integer after that, or whose
decimal digits are too many, has no value.
-/

namespace ProgramInterface

namespace IntegerLiteral

/-- The integer types that may stand behind a literal. -/
def typeNames : List Text :=
  ["u8", "u16", "u32", "u64", "u128", "usize", "i8", "i16", "i32", "i64", "i128",
    "isize"].map Text.ofString

/-- A text without the integer type at its end. -/
def dropType (t : Text) : Text :=
  (typeNames.findSome? fun name => Text.dropEnd? name t).getD t

/-- A text without an integer type at its end or in front of a line end there. -/
def dropSuffix (t : Text) : Text :=
  match Text.dropEnd? "\n" t with
  | some line =>
    let kept := dropType line
    if kept.length < line.length then kept ++ "\n" else t
  | none => dropType t

/-- The base that the first two characters of a literal name, and the digits behind them. -/
def splitBase (t : Text) : Nat × Text :=
  match t with
  | .scalar '0' :: .scalar letter :: digits =>
    match letter.toLower with
    | 'x' => (16, digits)
    | 'o' => (8, digits)
    | 'b' => (2, digits)
    | _ => (10, t)
  | _ => (10, t)

/-- The value of a literal. -/
def value? (t : Text) : Option Int :=
  let (base, digits) := splitBase (dropSuffix (t.filter (· != .scalar '_')))
  (IntegerText.read base digits).toOption

end IntegerLiteral

end ProgramInterface
