import ProgramInterface.Grammar.Expressions

/-!
# Items and statements

Items, their bodies, and the statements of blocks. A list of statements or declarations steps over a
token that begins nothing, and that token becomes an error node; so does the rest of a field that
goes on after its type.
-/

namespace ProgramInterface

namespace Grammar

open Reader

/-- The visibility of an item or field. -/
def visibility : Reader Unit :=
  branch .visibility none do
    word "pub"
    optional do
      token "("
      if ← atWord "in" then
        word "in"
        simplePath none
      else orElse (word "crate") <| orElse (word "self") (word "super")
      token ")"

/-! ## Recovery -/

/-- The length of the token at the head of a text that begins nothing. -/
def strayToken (text : List Char) : Nat :=
  (((Lexical.string? text).orElse fun _ => Lexical.char? text).orElse fun _ =>
    (Lexical.name? text).orElse fun _ => Lexical.integer? text).getD 1

/-- Steps over one token, which becomes an error node. -/
def stepOver : Reader Unit := do
  let text ← rest
  if text.isEmpty then refuse
  branch .error none (leaf .token false none (strayToken text))

/-- The closing brace of a list, or its absence at the end of the source. -/
def closingBrace : Reader Unit := do
  if ← atEnd then leaf .missing false none 0 else token "\x7d"

/-- Steps over what follows an item of a list up to the next comma or the closing brace. -/
def stepToComma : Reader Unit := do
  if !((← sees ",") || (← sees "\x7d") || (← atEnd)) then
    branch .error none <| whileTrue do
      if (← sees ",") || (← sees "\x7d") || (← atEnd) then return false
      leaf .token false none (strayToken (← rest))
      return true

/-- Parts in braces with commas between them. -/
def braced (part : Reader Unit) : Reader Unit := do
  token "\x7b"
  whileTrue do
    if (← sees "\x7d") || (← atEnd) then return false
    part
    stepToComma
    if ← sees "," then
      token ","
      return true
    return false
  closingBrace

/-! ## Fields and variants -/

/-- A field with a name. -/
def fieldDeclaration (sub : SubReader) : Reader Unit :=
  branch .fieldDeclaration none do
    optional visibility
    name .fieldIdentifier (some .name)
    sign ":"
    typeAs sub .type

/-- Fields with names, in braces. -/
def fieldDeclarationList (sub : SubReader) : Reader Unit :=
  branch .fieldDeclarationList (some .body) do
    braced do
      attributes sub
      fieldDeclaration sub

/-- Fields without names, in parentheses. -/
def orderedFieldDeclarationList (sub : SubReader) : Reader Unit :=
  branch .orderedFieldDeclarationList (some .body) do
    bracketed "(" ")" do
      attributes sub
      optional visibility
      typeAs sub .type

/-- A variant of an enumeration. -/
def enumVariant (sub : SubReader) : Reader Unit :=
  branch .enumVariant none do
    optional visibility
    name .identifier (some .name)
    if ← sees "\x7b" then fieldDeclarationList sub
    else if ← sees "(" then orderedFieldDeclarationList sub
    optional do
      sign "="
      sub (.expression true)

/-- The variants of an enumeration, in braces. -/
def enumVariantList (sub : SubReader) : Reader Unit :=
  branch .enumVariantList (some .body) do
    braced do
      attributes sub
      enumVariant sub

/-! ## Items -/

/-- A name and the type parameters behind it. -/
def nameAndParameters (sub : SubReader) (kind : Kind) : Reader Unit := do
  name kind (some .name)
  optional (typeParameters sub)

/-- The end of a function: a body, or a semicolon where there is none. -/
def functionEnd (sub : SubReader) : Reader Kind := do
  if ← sees ";" then
    token ";"
    return .functionSignature
  sub .block
  setRole .body
  return .functionItem

/-- A function. -/
def function (sub : SubReader) : Reader Kind := do
  many functionModifier
  word "fn"
  nameAndParameters sub .identifier
  parameters sub
  optional do
    token "->"
    sub (.type true)
  optional (whereClause sub)
  functionEnd sub

/-- A struct. -/
def struct (sub : SubReader) : Reader Kind := do
  word "struct"
  nameAndParameters sub .typeIdentifier
  if ← sees "(" then
    orderedFieldDeclarationList sub
    optional (whereClause sub)
    token ";"
  else
    optional (whereClause sub)
    if ← sees ";" then token ";" else fieldDeclarationList sub
  return .structItem

/-- A union. -/
def union (sub : SubReader) : Reader Kind := do
  word "union"
  nameAndParameters sub .typeIdentifier
  optional (whereClause sub)
  fieldDeclarationList sub
  return .unionItem

/-- An enumeration. -/
def enum (sub : SubReader) : Reader Kind := do
  word "enum"
  nameAndParameters sub .typeIdentifier
  optional (whereClause sub)
  enumVariantList sub
  return .enumItem

/-- A name for a type, or a type that belongs to a trait. -/
def typeAlias (sub : SubReader) : Reader Kind := do
  word "type"
  nameAndParameters sub .typeIdentifier
  optional (traitBounds sub)
  optional (whereClause sub)
  optional do
    sign "="
    sub (.type true)
  optional (whereClause sub)
  token ";"
  return .otherItem

/-- A constant or static value. -/
def constant (sub : SubReader) : Reader Kind := do
  orElse (word "const") (word "static")
  optional (word "ref")
  optional (word "mut")
  name .identifier (some .name)
  sign ":"
  sub (.type true)
  optional do
    sign "="
    sub (.expression true)
  token ";"
  return .otherItem

/-- What a declaration of names used may hold. -/
def useToken : Reader Unit := do
  match (← rest).head? with
  | some '\x7b' => token "\x7b"
  | some '\x7d' => token "\x7d"
  | some ',' => token ","
  | some '*' => token "*"
  | some ':' => sign "::"
  | _ => name .identifier none

/-- A declaration of the names that a source uses. -/
def useDeclaration : Reader Kind := do
  word "use"
  many useToken
  token ";"
  return .useDeclaration

/-- A declaration of an external library. -/
def externalLibrary : Reader Kind := do
  word "extern"
  word "crate"
  name .identifier (some .name)
  optional do
    word "as"
    name .identifier none
  token ";"
  return .otherItem

/-- A let declaration. -/
def letDeclaration (sub : SubReader) : Reader Unit :=
  branch .letDeclaration none do
    word "let"
    sub (.pattern true)
    optional do
      sign ":"
      sub (.type true)
    optional do
      sign "="
      sub (.expression true)
    optional do
      word "else"
      sub .block
    token ";"

/-- The definition of a macro, whose rules are tokens in brackets. -/
def macroDefinition (sub : SubReader) : Reader Unit :=
  branch .macroDefinition none do
    word "macro_rules"
    sign "!"
    name .identifier (some .name)
    let braces ← sees "\x7b"
    sub .tokenTree
    if !braces then token ";"

/-- Declarations in braces; one that begins nothing is stepped over. -/
def declarationList (sub : SubReader) : Reader Unit :=
  branch .declarationList (some .body) do
    token "\x7b"
    many do
      if ← sees "\x7d" then refuse
      orElse (sub .declaration) stepOver
    closingBrace

/-- A module. -/
def module (sub : SubReader) : Reader Kind := do
  word "mod"
  name .identifier (some .name)
  if ← sees ";" then token ";" else declarationList sub
  return .modItem

/-- A trait. -/
def traitItem (sub : SubReader) : Reader Kind := do
  optional (word "unsafe")
  optional (word "auto")
  word "trait"
  nameAndParameters sub .typeIdentifier
  optional (traitBounds sub)
  optional (whereClause sub)
  declarationList sub
  return .traitItem

/-- An implementation of functions for a type. -/
def implItem (sub : SubReader) : Reader Kind := do
  optional (word "default")
  optional (word "unsafe")
  word "impl"
  optional (typeParameters sub)
  optional (sign "!")
  sub (.type true)
  optional do
    word "for"
    sub (.type true)
  optional (whereClause sub)
  if ← sees ";" then token ";" else declarationList sub
  return .implItem

/-- Declarations of functions that are defined elsewhere. -/
def externalBlock (sub : SubReader) : Reader Kind := do
  optional (word "unsafe")
  word "extern"
  optional (lexeme .literal none Lexical.string?)
  if ← sees ";" then token ";" else declarationList sub
  return .otherItem

/-- An item, which may be visible from elsewhere. -/
def item (sub : SubReader) : Reader Unit :=
  apart do
    let origin ← mark
    optional visibility
    let kind ←
      if ← wouldRead do many functionModifier; word "fn" then function sub
      else if ← atWord "struct" then struct sub
      else if ← atWord "enum" then enum sub
      else if ← atWord "mod" then module sub
      else if ← atWord "use" then useDeclaration
      else if ← atWord "type" then typeAlias sub
      else if ← atWord "union" then union sub
      else if (← atWord "const") || (← atWord "static") then constant sub
      else if ← wouldRead do word "extern"; word "crate" then externalLibrary
      else
        orElse (traitItem sub) <|
          orElse (implItem sub) (externalBlock sub)
    fold origin kind none

/-! ## Statements -/

/-- A declaration, as it may stand in a module or in the body of an item. -/
def declaration (sub : SubReader) : Reader Unit := do
  if ← sees ";" then leaf .emptyStatement true none 1
  else if ← sees "#" then orElse (innerAttributeItem sub) (attributeItem sub)
  else if ← atWord "let" then letDeclaration sub
  else orElse (macroDefinition sub) <| orElse (item sub) (macroInvocation sub none)

/-- An expression as a statement: with a semicolon, or at the end of a block, or ending with the
block it begins with. -/
def expressionStatement (sub : SubReader) : Reader Unit :=
  branch .expressionStatement none do
    let ended ← blockLed sub
    if ← sees ";" then token ";"
    else if !ended && !(← sees "\x7d") then refuse

/-- Whether a macro invocation that ends here is an operand of an expression. -/
def goesOn : Reader Bool := do
  if ← atWord "as" then return true
  let next := Lexical.sign (← rest)
  return next = ['?'] || next = ['.'] || rangeSigns.contains next || binarySigns.contains next

/-- A macro invocation as a statement. -/
def macroStatement (sub : SubReader) : Reader Unit := do
  macroInvocation sub none
  if ← goesOn then refuse

/-- A statement. -/
def statement (sub : SubReader) : Reader Unit := do
  if ← sees ";" then leaf .emptyStatement true none 1
  else if ← sees "#" then orElse (innerAttributeItem sub) (attributeItem sub)
  else if ← atWord "let" then letDeclaration sub
  else
    orElse (macroDefinition sub) <| orElse (item sub) <|
      orElse (macroStatement sub) (expressionStatement sub)

/-- Statements in braces. -/
def block (sub : SubReader) : Reader Unit :=
  branch .block none do
    token "\x7b"
    many do
      if ← sees "\x7d" then refuse
      statement sub
    token "\x7d"

end Grammar

end ProgramInterface
