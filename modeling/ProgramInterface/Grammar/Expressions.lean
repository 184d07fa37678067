import ProgramInterface.Grammar.Patterns

/-!
# Expressions

An expression is one flat node: operators, operands and what follows an operand are read in source
order, without regard to how strongly operators bind. An expression that begins with a block, such
as a conditional or a loop, may stand as a statement without a semicolon.
-/

namespace ProgramInterface

namespace Grammar

open Reader

/-- The signs between two operands, ranges apart. -/
def binarySigns : List (List Char) :=
  ["&&", "||", "==", "!=", "<=", ">=", "<<", ">>", "<<=", ">>=", "+=", "-=", "*=", "/=", "%=", "^=",
    "&=", "|=", "+", "-", "*", "/", "%", "^", "&", "|", "<", ">", "="].map String.toList

/-- The signs between two operands that cannot begin a statement or a pattern. -/
def innerSigns : List (List Char) :=
  ["==", "!=", "<=", ">=", "<<", ">>", "<<=", ">>=", "+=", "-=", "*=", "/=", "%=", "^=", "&=", "|=",
    "+", "/", "%", "^", ">", "=", ".", "?"].map String.toList

/-- The signs of ranges. -/
def rangeSigns : List (List Char) :=
  ["..", "..=", "..."].map String.toList

/-- The characters other than those of names and numbers that begin an operand. -/
def operandChars : List Char :=
  ['"', '\'', '(', '[', '<', '&', '*', '-', '!', '|', '.']

/-- Whether an operand begins here. -/
def atOperand (structs : Bool) : Reader Bool := do
  match ← rest with
  | [] => return false
  | c :: _ =>
    if c = '\x7b' then return structs
    if ← atSign "::" then return true
    if ← atWord "as" then return false
    if ← atWord "else" then return false
    return isNameStart c || Lexical.isDigit c || operandChars.contains c

/-- A condition: an expression in which a brace begins a block. -/
def condition (sub : SubReader) : Reader Unit :=
  sub (.expression false)

/-- Conditionals, each after the `else` of the one before. -/
def conditional (sub : SubReader) : Reader Unit :=
  whileTrue do
    word "if"
    condition sub
    sub .block
    if ← atWord "else" then
      word "else"
      if ← atWord "if" then return true
      sub .block
    return false

/-- Whether a block, conditional, match or loop begins here. -/
def atBlockLike : Reader Bool := do
  if (← sees "\x7b") || (← atWord "if") || (← atWord "match") || (← atWord "while") ||
      (← atWord "loop") then
    return true
  if ← atWord "for" then return !(← wouldRead do word "for"; token "<")
  let worded (w : String) : Reader Bool := wouldRead do word w; token "\x7b"
  if (← worded "unsafe") || (← worded "async") || (← worded "try") || (← worded "const") then
    return true
  if ← wouldRead do word "async"; word "move"; token "\x7b" then return true
  wouldRead do lifetime; sign ":"

/-- Goes on after a part that began with a block, if what follows cannot begin something new. -/
def continuesBlock : Reader Bool := do
  if ← atWord "as" then return true
  return innerSigns.contains (Lexical.sign (← rest))

/-- What may follow an operand: a question mark, a member, arguments, an index or a cast. -/
def postfixStep (sub : SubReader) : Reader Unit := do
  if ← sees "?" then token "?"
  else if ← sees "(" then
    branch .arguments none <| bracketed "(" ")" do
      attributes sub
      sub (.expression true)
  else if ← sees "[" then
    branch .arguments none do
      token "["
      sub (.expression true)
      token "]"
  else if ← atWord "as" then
    word "as"
    sub (.type false)
  else
    sign "."
    orElse (lexeme .integerLiteral none Lexical.integer?) (name .fieldIdentifier none)
    optional do
      sign "::"
      typeArguments sub

/-- An operator between operands. Tells whether another operand follows, which behind a range it need
not. -/
def operatorStep (structs : Bool) : Reader Bool := do
  let next := Lexical.sign (← rest)
  if rangeSigns.contains next then
    rangeSign
    atOperand structs
  else if binarySigns.contains next then
    leaf .token false none next.length
    return true
  else return false

/-- An arm of a match. -/
def matchArm (sub : SubReader) : Reader Unit := do
  many (orElse (attributeItem sub) (innerAttributeItem sub))
  sub (.pattern true)
  optional do
    word "if"
    sub (.expression true)
  token "=>"
  sub .armValue
  if ← sees "," then token ","

/-- A match on a value. -/
def matching (sub : SubReader) : Reader Unit := do
  word "match"
  condition sub
  token "\x7b"
  many (innerAttributeItem sub)
  whileTrue do
    if ← sees "\x7d" then return false
    matchArm sub
    return true
  token "\x7d"

/-- A block, conditional, match or loop, which may have a label. -/
def blockLike (sub : SubReader) : Reader Unit := do
  optional do
    lifetime
    sign ":"
  if ← sees "\x7b" then sub .block
  else if ← atWord "if" then conditional sub
  else if ← atWord "match" then matching sub
  else if ← atWord "while" then
    word "while"
    condition sub
    sub .block
  else if ← atWord "for" then
    word "for"
    sub (.pattern true)
    word "in"
    condition sub
    sub .block
  else if ← atWord "async" then
    word "async"
    optional (word "move")
    sub .block
  else
    orElse (word "loop") <| orElse (word "unsafe") <| orElse (word "try") (word "const")
    sub .block

/-- A parameter of a closure. -/
def closureParameter (sub : SubReader) : Reader Unit := do
  attributes sub
  sub (.pattern false)
  optional do
    sign ":"
    sub (.type true)

/-- A closure. -/
def closure (sub : SubReader) (structs : Bool) : Reader Unit := do
  optional (forLifetimes sub)
  optional (word "static")
  optional (word "async")
  optional (word "move")
  if ← atSign "||" then sign "||" else bracketed "|" "|" (closureParameter sub)
  if ← atSign "->" then
    returnType sub
    sub .block
  else sub (.expression structs)

/-- A word that ends the course of a block, perhaps with a label and a value. -/
def jump (sub : SubReader) (structs : Bool) : Reader Unit := do
  orElse (word "return") <| orElse (word "break") <| orElse (word "continue") (word "yield")
  if ← atLifetime then lifetime
  if ← atOperand structs then sub (.expression structs)

/-- A member of a struct literal. -/
def initializer (sub : SubReader) : Reader Unit := do
  attributes sub
  if ← sees ".." then
    token ".."
    if ← atOperand true then sub (.expression true)
  else
    orElse (name .fieldIdentifier none) (lexeme .integerLiteral none Lexical.integer?)
    optional do
      sign ":"
      sub (.expression true)

/-- Expressions between square brackets, with commas or one semicolon between them. -/
def elements (sub : SubReader) : Reader Unit := do
  token "["
  whileTrue do
    if ← sees "]" then return false
    attributes sub
    sub (.expression true)
    if ← sees "," then
      token ","
      return true
    if ← sees ";" then
      token ";"
      return true
    return false
  token "]"

/-- Whether a closure begins here. -/
def atClosure : Reader Bool := do
  if ← sees "|" then return true
  wouldRead do
    optional (word "static")
    optional (word "async")
    optional (word "move")
    token "|"

/-- An operand without what precedes and follows it. -/
def atom (sub : SubReader) (structs : Bool) : Reader Unit := do
  if ← atBlockLike then blockLike sub
  else if ← sees "(" then
    bracketed "(" ")" do
      attributes sub
      sub (.expression true)
  else if ← sees "[" then elements sub
  else if ← atClosure then closure sub structs
  else if (← atWord "return") || (← atWord "break") || (← atWord "continue") ||
      (← atWord "yield") then
    jump sub structs
  else if ← atWord "for" then closure sub structs
  else
    orElse plainLiteral <| orElse truthValue <| orElse (macroInvocation sub none) do
      valuePath sub
      if structs then
        if ← sees "\x7b" then bracketed "\x7b" "\x7d" (initializer sub)

/-- A sign or word in front of an operand. -/
def prefixStep (sub : SubReader) : Reader Unit := do
  match (← rest).head? with
  | some '-' => token "-"
  | some '!' => token "!"
  | some '*' => token "*"
  | some '&' =>
    token "&"
    optional do
      word "raw"
      orElse (word "const") (word "mut")
    optional (word "mut")
  | _ =>
    word "let"
    sub (.pattern true)
    sign "="

/-- An operand with what precedes and follows it. -/
def wholeOperand (sub : SubReader) (structs : Bool) : Reader Unit := do
  many (prefixStep sub)
  atom sub structs
  many (postfixStep sub)

/-- Operands with operators between them; behind a range an operand may be missing. -/
def operands (sub : SubReader) (structs : Bool) : Reader Unit :=
  whileTrue do
    if rangeSigns.contains (Lexical.sign (← rest)) then
      rangeSign
      if ← atOperand structs then wholeOperand sub structs
    else wholeOperand sub structs
    operatorStep structs

/-- An expression. -/
def expression (sub : SubReader) (structs : Bool) : Reader Unit :=
  branch .expression none (operands sub structs)

/-- An expression that ends with the block it begins with, unless what follows can only go on with
it. Tells whether it ended so. -/
def blockLed (sub : SubReader) : Reader Bool := do
  if ← atBlockLike then
    apart do
      let origin ← mark
      blockLike sub
      if ← continuesBlock then
        many (postfixStep sub)
        if ← operatorStep true then operands sub true
        fold origin .expression none
        return false
      fold origin .expression none
      return true
  else
    expression sub true
    return false

/-- The value of an arm of a match. -/
def armValue (sub : SubReader) : Reader Unit := do
  let _ ← blockLed sub

end Grammar

end ProgramInterface
