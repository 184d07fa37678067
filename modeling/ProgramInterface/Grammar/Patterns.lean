import ProgramInterface.Grammar.Types

/-!
# Patterns and paths of values

A pattern is one node whose children are its parts in source order; only patterns inside brackets
are nodes of their own.
-/

namespace ProgramInterface

namespace Grammar

open Reader

/-- The first segment of a path of a value. -/
def valueHead (sub : SubReader) : Reader Unit := do
  if ← sees "<" then
    bracketedType sub
    if !(← atSign "::") then refuse
  else if ← atSign "::" then
    let origin ← mark
    sign "::"
    name .identifier none
    fold origin .scopedIdentifier none
  else name .identifier none

/-- Type arguments behind a double colon. In front of another part of a path they make a type of what
stands before them, and elsewhere they belong to the name of a function. -/
def turbofish (sub : SubReader) (origin : Draft) : Reader Unit := do
  setRole .type
  sign "::"
  typeArguments sub
  if (← atSign "::") || (← sees "\x7b") then fold origin .genericType none
  else fold origin .expression none

/-- What may follow a part of a path of a value: a further name or type arguments. -/
def valueStep (sub : SubReader) (origin : Draft) : Reader Unit := do
  if ← wouldRead do sign "::"; token "<" then turbofish sub origin
  else
    sign "::"
    name .identifier none
    fold origin .scopedIdentifier none

/-- A path of a value; type arguments in it stand behind double colons. -/
def valuePath (sub : SubReader) : Reader Unit :=
  apart do
    let origin ← mark
    valueHead sub
    many (valueStep sub origin)

/-- The sign of a range. -/
def rangeSign : Reader Unit :=
  orElse (sign "..=") <| orElse (sign "...") (sign "..")

/-- An end of a range of patterns. -/
def rangeEnd (sub : SubReader) : Reader Unit :=
  orElse literal (valuePath sub)

/-- The rest of a range of patterns behind its first end. -/
def rangeRest (sub : SubReader) : Reader Unit := do
  rangeSign
  if !(← atWord "if") then optional (rangeEnd sub)

/-- A member of a struct pattern. -/
def fieldPattern (sub : SubReader) : Reader Unit := do
  attributes sub
  if ← sees ".." then token ".."
  else
    optional (word "ref")
    optional (word "mut")
    orElse (name .fieldIdentifier none) (lexeme .integerLiteral none Lexical.integer?)
    optional do
      sign ":"
      sub (.pattern true)

/-- What may follow a path in a pattern. -/
def patternTail (sub : SubReader) : Reader Unit := do
  if ← sees "(" then bracketed "(" ")" (sub (.pattern true))
  else if ← sees "\x7b" then bracketed "\x7b" "\x7d" (fieldPattern sub)
  else if ← atSign "@" then
    token "@"
    sub (.pattern false)
  else optional (rangeRest sub)

/-- A pattern without alternatives. -/
def simplePattern (sub : SubReader) : Reader Unit := do
  match (← rest).head? with
  | some '&' =>
    token "&"
    optional (word "mut")
    sub (.pattern false)
  | some '(' => bracketed "(" ")" (sub (.pattern true))
  | some '[' => bracketed "[" "]" (sub (.pattern true))
  | some '.' => rangeRest sub
  | _ =>
    if ← atWord "ref" then
      word "ref"
      optional (word "mut")
      sub (.pattern false)
    else if ← atWord "mut" then
      word "mut"
      sub (.pattern false)
    else if ← atWord "const" then
      word "const"
      sub .block
    else
      orElse (do literal; optional (rangeRest sub)) <|
        orElse (macroInvocation sub none) do
          valuePath sub
          patternTail sub

/-- A pattern; with `alternatives` it may list several. -/
def pattern (sub : SubReader) (alternatives : Bool) : Reader Unit :=
  branch .pattern none do
    if alternatives then optional (sign "|")
    simplePattern sub
    if alternatives then
      many do
        sign "|"
        simplePattern sub

end Grammar

end ProgramInterface
