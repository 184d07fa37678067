import ProgramInterface.Text.Class

/-!
# The words, literals and signs of a source

Each function here looks at the head of a list of characters and tells how many of them a word, a
literal, a sign or a comment takes, or that none stands there.
-/

namespace ProgramInterface

namespace Lexical

/-- White space between tokens. -/
def isGap (c : Char) : Bool :=
  c = ' ' || ('\t' ≤ c && c ≤ '\r')

/-- The number of characters of a line comment behind its two strokes. -/
def lineRest (n : Nat) : List Char → Nat
  | [] => n
  | c :: rest => if c = '\n' then n else lineRest (n + 1) rest

/-- The number of characters up to the end of a block comment at a depth of nesting, and whether the
comment ends; one that does not takes everything. -/
def blockRest (depth n : Nat) : List Char → Nat × Bool
  | [] => (n, false)
  | '*' :: '/' :: rest => if depth ≤ 1 then (n + 2, true) else blockRest (depth - 1) (n + 2) rest
  | '/' :: '*' :: rest => blockRest (depth + 1) (n + 2) rest
  | _ :: rest => blockRest depth (n + 1) rest

/-- The shapes of comments; a block comment without an end has one of its own. -/
inductive CommentShape where
  | line
  | block
  | unclosed
  deriving DecidableEq

/-- A comment: its shape and its length. -/
def comment? : List Char → Option (CommentShape × Nat)
  | '/' :: '/' :: rest => some (.line, lineRest 2 rest)
  | '/' :: '*' :: rest =>
    let (n, isClosed) := blockRest 1 2 rest
    some (if isClosed then .block else .unclosed, n)
  | _ => none

/-- The length of the run of name characters at the head of a text. -/
def nameRun (text : List Char) : Nat :=
  (text.takeWhile isNameNext).length

/-- The length of a name, which may be marked as one by `r#`. -/
def name? : List Char → Option Nat
  | 'r' :: '#' :: c :: rest =>
    if isNameStart c then some (3 + nameRun rest) else some 1
  | c :: rest => if isNameStart c then some (1 + nameRun rest) else none
  | [] => none

/-- Whether a text begins with a given word, and not with a longer one. -/
def beginsWithWord (word text : List Char) : Bool :=
  word.isPrefixOf text &&
    match text.drop word.length with
    | c :: _ => !isNameNext c
    | [] => true

/-! ## Numbers -/

/-- The words that may end an integer literal, longest first where one begins another. -/
def numberSuffixes : List (List Char) :=
  ["u128", "i128", "usize", "isize", "u16", "i16", "u32", "i32", "u64", "i64", "f32", "f64", "u8",
    "i8"].map String.toList

/-- The length of the suffix at the head of a text, if there is one. -/
def suffixLength (text : List Char) : Nat :=
  (numberSuffixes.find? (·.isPrefixOf text)).elim 0 List.length

/-- A decimal digit. -/
def isDigit (c : Char) : Bool :=
  '0' ≤ c && c ≤ '9'

/-- A digit of a base, or an underscore. -/
def isDigitOf (base : Char) (c : Char) : Bool :=
  c = '_' ||
    match base with
    | 'b' => c = '0' || c = '1'
    | 'o' => '0' ≤ c && c ≤ '7'
    | 'x' => isDigit c || ('a' ≤ c && c ≤ 'f') || ('A' ≤ c && c ≤ 'F')
    | _ => isDigit c

/-- The length of an integer literal: digits with underscores, with or without the mark of a base in
front and a type behind. -/
def integer? (text : List Char) : Option Nat :=
  let plain : Option Nat :=
    match text with
    | c :: _ => if isDigit c then some (text.takeWhile (isDigitOf 'd')).length else none
    | [] => none
  let digits : Option Nat :=
    match text with
    | '0' :: base :: rest =>
      let run := (rest.takeWhile (isDigitOf base)).length
      if (base = 'x' ∨ base = 'b' ∨ base = 'o') ∧ 0 < run then some (2 + run) else plain
    | _ => plain
  digits.map fun n => n + suffixLength (text.drop n)

/-- A letter behind which a point ends an integer. -/
def isLetter (c : Char) : Bool :=
  c ≠ '_' && isNameStart c

/-- The number of characters of the exponent at the head of a text, if a sign or digit follows its
letter; without digits it counts as empty. -/
def exponentLength (text : List Char) : Option Nat :=
  match text with
  | c :: rest =>
    if c = 'e' ∨ c = 'E' then
      let (sign, rest) :=
        match rest with
        | '+' :: rest => (1, rest)
        | '-' :: rest => (1, rest)
        | rest => (0, rest)
      let run := (rest.takeWhile (isDigitOf 'd')).length
      some (if run = 0 then 0 else 1 + sign + run)
    else none
  | [] => none

/-- The length of the type behind a floating-point literal. -/
def floatSuffix (text : List Char) : Nat :=
  match text with
  | c :: rest =>
    let run := (rest.takeWhile isDigit).length
    if (c = 'u' ∨ c = 'i' ∨ c = 'f') ∧ 0 < run then 1 + run else 0
  | [] => 0

/-- The length of a floating-point literal: digits with a point or an exponent. A point in front of a
letter or of another point belongs to what follows. -/
def float? (text : List Char) : Option Nat :=
  match text with
  | [] => none
  | first :: _ =>
    if !isDigit first then none
    else
      let whole := (text.takeWhile (isDigitOf 'd')).length
      let afterWhole := text.drop whole
      let fraction : Option (Option Nat) :=
        match afterWhole with
        | '.' :: rest =>
          match rest with
          | c :: _ =>
            if isLetter c || c = '.' then none
            else some (some (1 + (rest.takeWhile (isDigitOf 'd')).length))
          | [] => some (some 1)
        | _ => some none
      match fraction with
      | none => none
      | some places =>
        let mantissa := whole + places.getD 0
        let rest := text.drop mantissa
        match exponentLength rest with
        | some 0 => some mantissa
        | some n => some (mantissa + n + floatSuffix (rest.drop n))
        | none => if places.isSome then some (mantissa + floatSuffix rest) else none

/-! ## Strings and characters -/

/-- The number of characters up to the closing quote of a string whose escapes begin with a
backslash. -/
def stringRest (n : Nat) : List Char → Option Nat
  | [] => none
  | '"' :: _ => some (n + 1)
  | '\\' :: _ :: rest => stringRest (n + 2) rest
  | _ :: rest => stringRest (n + 1) rest

/-- The number of characters up to the quote that closes a raw string with a number of hashes. -/
def rawRest (hashes : List Char) (n : Nat) : List Char → Option Nat
  | [] => none
  | '"' :: rest =>
    if hashes.isPrefixOf rest then some (n + 1 + hashes.length) else rawRest hashes (n + 1) rest
  | _ :: rest => rawRest hashes (n + 1) rest

/-- The length of a raw string behind its letters. -/
def rawString? (letters : Nat) (text : List Char) : Option Nat :=
  let hashes := text.takeWhile (· = '#')
  match text.drop hashes.length with
  | '"' :: rest => rawRest hashes (letters + hashes.length + 1) rest
  | _ => none

/-- The length of a string literal of any form. -/
def string? : List Char → Option Nat
  | '"' :: rest => stringRest 1 rest
  | 'b' :: '"' :: rest => stringRest 2 rest
  | 'c' :: '"' :: rest => stringRest 2 rest
  | 'b' :: 'r' :: rest => rawString? 2 rest
  | 'c' :: 'r' :: rest => rawString? 2 rest
  | 'r' :: rest => rawString? 1 rest
  | _ => none

/-- The number of hexadecimal digits at the head of a text. -/
def hexRun (text : List Char) : Nat :=
  (text.takeWhile fun c => isDigitOf 'x' c && c ≠ '_').length

/-- The length of an escape behind its backslash. -/
def escape? : List Char → Option Nat
  | 'x' :: rest => if 2 ≤ hexRun rest then some 3 else none
  | 'u' :: '\x7b' :: rest =>
    let run := hexRun rest
    if 0 < run ∧ (rest.drop run).head? = some '\x7d' then some (3 + run) else none
  | 'u' :: rest => if 4 ≤ hexRun rest then some 5 else none
  | _ :: _ => some 1
  | [] => none

/-- The length of a character literal that begins with a quote. -/
def quotedChar? : List Char → Option Nat
  | '\'' :: '\'' :: _ => some 2
  | '\'' :: '\\' :: rest =>
    match escape? rest with
    | some n => if (rest.drop n).head? = some '\'' then some (3 + n) else none
    | none => none
  | '\'' :: _ :: '\'' :: _ => some 3
  | _ => none

/-- The length of a character literal, which may be marked as a byte. -/
def char? : List Char → Option Nat
  | 'b' :: rest => (quotedChar? rest).map (· + 1)
  | text => quotedChar? text

/-- The length of a lifetime or label. -/
def lifetime? : List Char → Option Nat
  | '\'' :: rest => (name? rest).map (· + 1)
  | _ => none

/-! ## Signs -/

/-- The signs of several characters, longest first. -/
def longSigns : List (List Char) :=
  ["<<=", ">>=", "...", "..=", "::", "->", "=>", "==", "!=", "<=", ">=", "&&", "||", "+=", "-=",
    "*=", "/=", "%=", "^=", "&=", "|=", "<<", ">>", ".."].map String.toList

/-- The sign at the head of a text: a long one if there is one, else a single character. -/
def sign (text : List Char) : List Char :=
  (longSigns.find? (·.isPrefixOf text)).getD (text.take 1)

/-- The names of the primitive types. -/
def primitiveNames : List (List Char) :=
  ["u8", "i8", "u16", "i16", "u32", "i32", "u64", "i64", "u128", "i128", "isize", "usize", "f32",
    "f64", "bool", "str", "char"].map String.toList

end Lexical

end ProgramInterface
