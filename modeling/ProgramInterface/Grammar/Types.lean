import ProgramInterface.Grammar.Production

/-!
# Types and their parameters

Types, type arguments, bounds, type parameters and the parameters of functions. A path is read from
left to right: each further name or list of arguments takes what was read so far into a new node.
-/

namespace ProgramInterface

namespace Grammar

open Reader

/-- A type together with the role that it plays. -/
def typeAs (sub : SubReader) (role : Role) : Reader Unit := do
  sub (.type true)
  setRole role

/-- A bound: a lifetime or a type. -/
def bound (sub : SubReader) : Reader Unit := do
  if ← atLifetime then lifetime else sub (.type false)

/-- Bounds with plus signs between them, behind a colon. -/
def traitBounds (sub : SubReader) : Reader Unit :=
  branch .traitBounds none do
    sign ":"
    optional (bound sub)
    many do
      token "+"
      bound sub

/-- One type argument: a lifetime, a block, a literal, or a type, which may be bound to another or
have bounds of its own. -/
def typeArgument (sub : SubReader) : Reader Unit := do
  if ← atLifetime then lifetime
  else if ← sees "\x7b" then sub .block
  else
    orElse literal <| apart do
      let origin ← mark
      sub (.type true)
      if ← sees "=" then
        token "="
        sub (.type true)
        fold origin .typeBinding none
      else if ← atSign ":" then traitBounds sub

/-- Type arguments between angle brackets. -/
def typeArguments (sub : SubReader) : Reader Unit :=
  branch .typeArguments (some .typeArguments) do
    bracketed "<" ">" (typeArgument sub)

/-- A parameter between angle brackets: a lifetime, a constant or a type. -/
def typeParameter (sub : SubReader) : Reader Unit := do
  attributes sub
  if ← atLifetime then
    lifetime
    optional (traitBounds sub)
  else if ← atWord "const" then
    word "const"
    name .identifier none
    sign ":"
    sub (.type true)
    optional do
      token "="
      if ← sees "\x7b" then sub .block else orElse literal (simplePath none)
  else
    name .typeIdentifier none
    optional (traitBounds sub)
    optional do
      token "="
      sub (.type true)

/-- Type parameters between angle brackets. -/
def typeParameters (sub : SubReader) : Reader Unit :=
  branch .typeParameters none do
    bracketed "<" ">" (typeParameter sub)

/-- The lifetimes that a function type or a bound holds for. -/
def forLifetimes (sub : SubReader) : Reader Unit := do
  word "for"
  typeParameters sub

/-- What must hold of type parameters; the clause ends in front of a body or a semicolon. -/
def whereClause (sub : SubReader) : Reader Unit :=
  branch .whereClause none do
    word "where"
    whileTrue do
      if (← sees "\x7b") || (← sees ";") || (← atEnd) then return false
      bound sub
      optional (traitBounds sub)
      if ← sees "," then
        token ","
        return true
      return false

/-- The parameter that stands for the value a function belongs to. -/
def selfParameter : Reader Unit :=
  branch .parameter none do
    if ← sees "&" then
      token "&"
      if ← atLifetime then lifetime
    optional (word "mut")
    word "self"
    if ← atSign ":" then refuse

/-- A parameter of a function or function type. -/
def parameter (sub : SubReader) : Reader Unit := do
  attributes sub
  if ← sees "..." then token "..."
  else
    orElse selfParameter <| orElse
      (branch .parameter none do
        optional (word "mut")
        sub (.pattern true)
        sign ":"
        if ← sees "..." then token "..." else sub (.type true))
      (sub (.type true))

/-- Parameters between parentheses. -/
def parameters (sub : SubReader) : Reader Unit :=
  branch .parameters (some .parameters) do
    bracketed "(" ")" (parameter sub)

/-- The type of what a function returns. -/
def returnType (sub : SubReader) : Reader Unit := do
  token "->"
  sub (.type false)

/-- One of the words in front of `fn`. -/
def functionModifier : Reader Unit :=
  orElse (word "async") <| orElse (word "const") <| orElse (word "unsafe") <|
    orElse (word "default") <| orElse (word "safe") do
      word "extern"
      optional (lexeme .literal none Lexical.string?)

/-- A function type that is spelled with `fn`. -/
def functionPointer (sub : SubReader) : Reader Unit :=
  branch .functionType none do
    optional (forLifetimes sub)
    many functionModifier
    word "fn"
    parameters sub
    optional (returnType sub)

/-- The length of the name of a primitive type. -/
def primitive? (text : List Char) : Option Nat :=
  (Lexical.primitiveNames.find? (Lexical.beginsWithWord · text)).map List.length

/-- A type between angle brackets at the head of a path, perhaps with the trait it is taken as. -/
def bracketedType (sub : SubReader) : Reader Unit :=
  branch .bracketedType none do
    token "<"
    sub (.type true)
    optional do
      word "as"
      sub (.type true)
    token ">"

/-- The first segment of a path. -/
def pathHead (sub : SubReader) : Reader Unit := do
  if ← sees "<" then
    bracketedType sub
    if !(← atSign "::") then refuse
  else if ← atSign "::" then
    let origin ← mark
    sign "::"
    name .typeIdentifier none
    fold origin .scopedTypeIdentifier none
  else
    orElse (lexeme .primitiveType none primitive?) (name .typeIdentifier none)

/-- Type arguments behind a double colon, which are only read in front of another one. -/
def innerArguments (sub : SubReader) (origin : Draft) : Reader Unit := do
  setRole .type
  sign "::"
  typeArguments sub
  if !(← atSign "::") then refuse
  fold origin .genericType none

/-- What may follow a part of a type path: a further name, type arguments, or parameters. -/
def pathStep (sub : SubReader) (origin : Draft) : Reader Unit := do
  if ← atSign "::" then
    orElse (innerArguments sub origin) do
      sign "::"
      name .typeIdentifier none
      fold origin .scopedTypeIdentifier none
  else
    let last ← lastKind
    if last ≠ some .typeIdentifier ∧ last ≠ some .scopedTypeIdentifier then refuse
    if ← sees "<" then
      setRole .type
      typeArguments sub
      fold origin .genericType none
    else if ← sees "(" then
      parameters sub
      optional (returnType sub)
      fold origin .functionType none
    else refuse

/-- A type that is a path. -/
def typePath (sub : SubReader) : Reader Unit :=
  apart do
    let origin ← mark
    pathHead sub
    many (pathStep sub origin)

/-- A reference type. -/
def referenceType (sub : SubReader) : Reader Unit :=
  branch .referenceType none do
    token "&"
    if ← atLifetime then lifetime
    optional (word "mut")
    sub (.type false)

/-- A pointer type. -/
def pointerType (sub : SubReader) : Reader Unit :=
  branch .pointerType none do
    token "*"
    orElse (word "const") (word "mut")
    sub (.type false)

/-- Types between parentheses. -/
def tupleType (sub : SubReader) : Reader Unit :=
  orElse
    (branch .unitType none do
      token "("
      token ")")
    (branch .tupleType none (bracketed "(" ")" (sub (.type true))))

/-- An element type between square brackets, perhaps with a length. -/
def arrayType (sub : SubReader) : Reader Unit :=
  branch .arrayType none do
    token "["
    sub (.type true)
    optional do
      token ";"
      sub (.expression true)
    token "]"

/-- A type that stands for any type with a bound. -/
def abstractType (sub : SubReader) : Reader Unit :=
  branch .abstractType none do
    word "impl"
    optional (forLifetimes sub)
    sub (.type false)

/-- A type that stands for a value of any type with a bound. -/
def dynamicType (sub : SubReader) : Reader Unit :=
  branch .dynamicType none do
    word "dyn"
    bound sub

/-- A type behind the lifetimes that it holds for. -/
def quantifiedType (sub : SubReader) : Reader Unit :=
  branch .functionType none do
    forLifetimes sub
    sub (.type false)

/-- A bound that is taken back. -/
def removedBound (sub : SubReader) : Reader Unit :=
  branch .removedBound none do
    token "?"
    sub (.type false)

/-- A type without further bounds behind it. -/
def simpleType (sub : SubReader) : Reader Unit := do
  match (← rest).head? with
  | some '&' => referenceType sub
  | some '*' => pointerType sub
  | some '(' => tupleType sub
  | some '[' => arrayType sub
  | some '!' => leaf .neverType true none 1
  | some '?' => removedBound sub
  | _ =>
    if ← atWord "impl" then abstractType sub
    else
      orElse (functionPointer sub) <| orElse (quantifiedType sub) <| orElse (dynamicType sub) <|
        orElse (macroInvocation sub none) (typePath sub)

/-- A type; with `bounds` it may go on with bounds behind plus signs. -/
def type (sub : SubReader) (bounds : Bool) : Reader Unit :=
  apart do
    let origin ← mark
    simpleType sub
    if bounds then
      many do
        token "+"
        bound sub
        fold origin .boundedType none

end Grammar

end ProgramInterface
