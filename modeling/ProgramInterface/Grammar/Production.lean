import ProgramInterface.Grammar.Draft

/-!
# Recursive parts of the grammar

The parts of the grammar that contain each other are named by `Production`. Every reader for such a
part takes a `SubReader`, which it calls for the parts inside it, so that each can be stated on its
own. Here are also the small parts that all others share: names, lifetimes, literals and token trees.
-/

namespace ProgramInterface

/-- A part of the grammar that may stand inside itself. An expression stands in a place where a name
in front of a brace begins a struct literal (`structs`), or where the brace begins a block; a type
may go on with further bounds behind a plus sign (`bounds`); a pattern may list alternatives
(`alternatives`). -/
inductive Production where
  | tokenTree
  | type (bounds : Bool)
  | pattern (alternatives : Bool)
  | expression (structs : Bool)
  | armValue
  | block
  | declaration

/-- Reads the parts inside a part of the grammar. -/
abbrev SubReader := Production → Reader Unit

namespace Grammar

open Reader

/-- A name of a given kind. -/
def name (kind : Kind) (role : Option Role) : Reader Unit :=
  lexeme kind role Lexical.name?

/-- A lifetime or label. -/
def lifetime : Reader Unit :=
  lexeme .lifetime none Lexical.lifetime?

/-- Whether a lifetime, and no character literal, stands here. -/
def atLifetime : Reader Bool := do
  let text ← rest
  return (Lexical.lifetime? text).isSome && (Lexical.char? text).isNone

/-- A string or character literal. -/
def quotedLiteral : Reader Unit :=
  lexeme .literal none fun text => (Lexical.string? text).orElse fun _ => Lexical.char? text

/-- A number; a floating-point literal is preferred to the integer it begins with. -/
def number : Reader Unit :=
  orElse (lexeme .literal none Lexical.float?) (lexeme .integerLiteral none Lexical.integer?)

/-- A literal other than a truth value. -/
def plainLiteral : Reader Unit :=
  orElse quotedLiteral number

/-- One of the two truth values. -/
def truthValue : Reader Unit :=
  lexeme .literal none fun text =>
    if Lexical.beginsWithWord "true".toList text then some 4
    else if Lexical.beginsWithWord "false".toList text then some 5
    else none

/-- A literal, or a number behind a minus sign. -/
def literal : Reader Unit :=
  orElse plainLiteral <| orElse truthValue <| branch .expression none do
    sign "-"
    number

/-- A path of names with double colons between them. -/
def simplePath (role : Option Role) : Reader Unit :=
  apart do
    let origin ← mark
    if ← atSign "::" then
      sign "::"
      name .identifier none
      fold origin .scopedIdentifier role
    else name .identifier role
    many do
      sign "::"
      name .identifier none
      fold origin .scopedIdentifier role

/-- The closing bracket for an opening one. -/
def closingOf? : Char → Option String
  | '(' => some ")"
  | '[' => some "]"
  | '\x7b' => some "\x7d"
  | _ => none

/-- Whether a character closes a bracket. -/
def isClosing (c : Char) : Bool :=
  c = ')' || c = ']' || c = '\x7d'

/-- One token inside a token tree. -/
def treeToken : Reader Unit :=
  orElse plainLiteral <| orElse (lexeme .identifier none Lexical.name?) do
    match ← rest with
    | c :: _ => if isClosing c then refuse else leaf .token false none 1
    | [] => refuse

/-- Tokens in brackets, in which brackets are matched. -/
def tokenTree (sub : SubReader) : Reader Unit := do
  let text ← rest
  match text.head?.bind closingOf? with
  | none => refuse
  | some closing =>
    branch .tokenTree none do
      leaf .token false none 1
      many do
        match (← rest).head?.bind closingOf? with
        | some _ => sub .tokenTree
        | none => treeToken
      token closing

/-- An attribute behind its number sign: a path, and behind it tokens in brackets or a value. -/
def attributeBody (sub : SubReader) : Reader Unit := do
  token "["
  branch .attributeBody none do
    simplePath none
    if ← atSign "=" then
      sign "="
      sub (.expression true)
    else optional (sub .tokenTree)
  token "]"

/-- An attribute in front of an item. -/
def attributeItem (sub : SubReader) : Reader Unit :=
  branch .attributeItem none do
    token "#"
    attributeBody sub

/-- An attribute of the part it stands in. -/
def innerAttributeItem (sub : SubReader) : Reader Unit :=
  branch .innerAttributeItem none do
    token "#"
    token "!"
    attributeBody sub

/-- Any number of attributes. -/
def attributes (sub : SubReader) : Reader Unit :=
  many (attributeItem sub)

/-- A macro invocation: a path, an exclamation mark and tokens in brackets. -/
def macroInvocation (sub : SubReader) (role : Option Role) : Reader Unit :=
  branch .macroInvocation role do
    simplePath (some .macroPath)
    sign "!"
    sub .tokenTree

end Grammar

end ProgramInterface
