import ProgramInterface.Text.Utf8
import ProgramInterface.Yaml.Scalar

/-!
# Tokens of a YAML text

Indentation shows as tokens that open and close block collections. A token that turns out to be the
key of a mapping, because a colon follows it on its line, has a key token put in front of it, so the
places where such keys may begin are remembered until then.
-/

namespace ProgramInterface

namespace Yaml

/-- A tag as it is written: a handle, if it has one, and what follows it. -/
structure TagMark where
  handle : Option Text
  suffix : Text

/-- A token. -/
inductive Token where
  | versionDirective (major : Int)
  | tagDirective (handle start : Text)
  | otherDirective
  | documentStart
  | documentEnd
  | blockSequenceStart
  | blockMappingStart
  | blockEnd
  | flowSequenceStart
  | flowSequenceEnd
  | flowMappingStart
  | flowMappingEnd
  | blockEntry
  | flowEntry
  | key
  | value
  | anchor (name : Text)
  | reference (name : Text)
  | tag (mark : TagMark)
  | scalar (content : Text) (isPlain : Bool)

/-- A place where a key without a mark of its own may have begun: the number of its first token,
whether it must be a key, and where it began. -/
structure OpenKey where
  token : Nat
  isRequired : Bool
  index : Nat
  line : Nat
  column : Nat

/-- The greatest number of characters of a key without a mark of its own. -/
def keyLimit : Nat := 1024

/-- Whether a key that is open can no longer become one at a place, because its line has ended or it
is too long. -/
def OpenKey.isStale (key : OpenKey) (place : Place) : Bool :=
  key.line ≠ place.line || keyLimit < place.index - key.index

/-- The state of reading tokens: the place, the depth of flow collections, the columns of the open
block collections, whether a key may begin here, the open keys by depth of flow, and the tokens read,
last first. -/
structure Scan where
  place : Place
  flow : Nat
  indent : Int
  indents : List Int
  keyAllowed : Bool
  keys : List (Nat × OpenKey)
  tokens : List Token
  count : Nat

/-- The tokens that are settled: nothing behind them can put a token in front of one of them. -/
def Scan.settled (s : Scan) : List Token :=
  let pending := s.keys.filter fun entry => !entry.2.isStale s.place
  s.tokens.reverse.take <| (pending.map (·.2.token)).foldl min s.count

/-- Reads tokens, or ends in a fault. -/
abbrev Scanner := StateT Scan (Except Fault)

namespace Scanner

/-- Ends in the fault that a text is malformed. -/
def malformed {α : Type} : Scanner α :=
  throw .malformed

/-- Moves to another place. -/
def moveTo (place : Place) : Scanner Unit :=
  modify fun s => { s with place }

/-- Moves on by some characters. -/
def skip (n : Nat) : Scanner Unit :=
  modify fun s => { s with place := s.place.advance n }

/-- Adds a token behind all others. -/
def emit (token : Token) : Scanner Unit :=
  modify fun s => { s with tokens := token :: s.tokens, count := s.count + 1 }

/-- Adds a token so that it has a given number. -/
def emitAt (number : Nat) (token : Token) : Scanner Unit :=
  modify fun s =>
    let behind := s.count - number
    { s with
      tokens := s.tokens.take behind ++ token :: s.tokens.drop behind
      count := s.count + 1 }

/-- Tells whether a key may begin at the next token. -/
def allowKey (allowed : Bool) : Scanner Unit :=
  modify fun s => { s with keyAllowed := allowed }

/-- Closes the block collections that stand further in than a column. -/
def unwind (column : Int) : Nat → Scanner Unit
  | 0 => pure ()
  | fuel + 1 => do
    let s ← get
    if s.flow = 0 ∧ column < s.indent then
      match s.indents with
      | outer :: rest =>
        set { s with indent := outer, indents := rest }
        emit .blockEnd
        unwind column fuel
      | [] => pure ()

/-- Closes the block collections that stand further in than a column. -/
def unwindTo (column : Int) : Scanner Unit := do
  unwind column ((← get).indents.length + 1)

/-- Opens a block collection at a column, if it stands further in than the innermost one. -/
def indentTo (column : Nat) : Scanner Bool := do
  let s ← get
  if s.indent < (column : Int) then
    set { s with indent := (column : Int), indents := s.indent :: s.indents }
    return true
  return false

/-- Closes the open key at the current depth of flow; one that must be a key is a fault. -/
def dropKey : Scanner Unit := do
  let s ← get
  match s.keys.lookup s.flow with
  | some key =>
    if key.isRequired then malformed
    set { s with keys := s.keys.filter (·.1 ≠ s.flow) }
  | none => pure ()

/-- Remembers that a key may begin with the next token. -/
def openKey : Scanner Unit := do
  let s ← get
  let isRequired : Bool := s.flow = 0 ∧ s.indent = (s.place.column : Int)
  if s.keyAllowed then
    dropKey
    modify fun t =>
      let key : OpenKey := ⟨t.count, isRequired, s.place.index, s.place.line, s.place.column⟩
      { t with keys := (t.flow, key) :: t.keys }

/-- Closes the open keys that can no longer become keys. -/
def dropStale : Scanner Unit := do
  let s ← get
  if s.keys.any fun entry => entry.2.isStale s.place && entry.2.isRequired then malformed
  set { s with keys := s.keys.filter fun entry => !entry.2.isStale s.place }

/-- Moves over spaces, comments and line ends. Behind a line end in a block a key may begin. -/
def skipToToken : Nat → Scanner Unit
  | 0 => pure ()
  | fuel + 1 => do
    let s ← get
    let place := s.place.skipSpaces.skipComment
    match place.lineBreak? with
    | some (_, next) =>
      set { s with place := next, keyAllowed := s.keyAllowed || s.flow = 0 }
      skipToToken fuel
    | none => moveTo place

/-! ## Names, tags and directives -/

/-- Whether a character may stand in the name of an anchor or handle. -/
def isNameChar (c : Char) : Bool :=
  c.isAlphanum || c = '-' || c = '_'

/-- The name of an anchor or directive. -/
def nameToken : Scanner Text := do
  let (name, behind) := (← get).place.takeWhile isNameChar
  if name.isEmpty then malformed
  moveTo behind
  return Text.ofChars name

/-- The name behind the mark of an anchor or of a reference to one. -/
def anchorName : Scanner Text := do
  skip 1
  let name ← nameToken
  let follows : List Char := ['?', ':', ',', ']', '\x7d', '%', '@', '\x60']
  let rest := (← get).place.rest
  if !endsOrBlank rest && !(rest.head?.any follows.contains) then malformed
  return name

/-- Whether a character may stand in a tag. -/
def isTagChar (c : Char) : Bool :=
  c.isAlphanum || "-;/?:@&=+$,_.!~*'()[]%".toList.contains c

/-- The bytes that escapes at the head of a text stand for, and how many characters they take. -/
def escapedBytes : List Char → Option (List UInt8 × Nat)
  | '%' :: a :: b :: rest =>
    match IntegerText.digitIn? 16 a, IntegerText.digitIn? 16 b with
    | some high, some low =>
      (escapedBytes rest).map fun (bytes, n) => (UInt8.ofNat (high * 16 + low) :: bytes, n + 3)
    | _, _ => none
  | '%' :: _ => none
  | _ => some ([], 0)

/-- The text of a tag, its escapes resolved; `done` is what was read. -/
def tagTextFrom (done : List Char) : Nat → Scanner Text
  | 0 => malformed
  | fuel + 1 => do
    let place := (← get).place
    match place.rest with
    | '%' :: _ =>
      match escapedBytes place.rest with
      | none => malformed
      | some (bytes, n) =>
        match Utf8.decode bytes with
        | .ok s =>
          skip n
          tagTextFrom (done ++ s.toList) fuel
        | .error _ => malformed
    | c :: _ =>
      if isTagChar c then
        let (chars, behind) := place.takeWhile fun c => isTagChar c && c ≠ '%'
        moveTo behind
        tagTextFrom (done ++ chars) fuel
      else if done.isEmpty then malformed
      else return Text.ofChars done
    | [] => if done.isEmpty then malformed else return Text.ofChars done

/-- The text of a tag. -/
def tagText : Scanner Text := do
  tagTextFrom [] ((← get).place.rest.length + 1)

/-- A handle: an exclamation mark, alone or with another one behind a name. -/
def tagHandle : Scanner Text := do
  let place := (← get).place
  match place.rest with
  | '!' :: rest =>
    if rest.head? = some ' ' then
      skip 1
      return "!"
    let name := rest.takeWhile isNameChar
    if (rest.drop name.length).head? = some '!' then
      skip (name.length + 2)
      return Text.ofChars (place.rest.take (name.length + 2))
    malformed
  | _ => malformed

/-- Whether a tag that begins with an exclamation mark goes on with a handle. -/
def hasHandle : List Char → Bool
  | [] => false
  | c :: rest => if isSpaceOrBreak c then false else c = '!' || hasHandle rest

/-- A tag. -/
def tagMark : Scanner TagMark := do
  let rest := (← get).place.rest.drop 1
  let mark : TagMark ←
    if rest.head? = some '<' then
      skip 2
      let suffix ← tagText
      if !(← get).place.sees '>' then malformed
      skip 1
      pure ⟨none, suffix⟩
    else if endsOrBlank rest then
      skip 1
      pure ⟨none, "!"⟩
    else if hasHandle rest then
      let handle ← tagHandle
      pure ⟨some handle, ← tagText⟩
    else
      skip 1
      pure ⟨some "!", ← tagText⟩
  if !endsOrSpace (← get).place.rest then malformed
  return mark

/-- A number of a version. -/
def versionNumber : Scanner Int := do
  let (digits, behind) := (← get).place.takeWhile fun c => '0' ≤ c && c ≤ '9'
  if digits.isEmpty then malformed
  match IntegerText.readChars 10 digits with
  | .error fault => throw (.value (fault.message 10 (Text.ofChars digits)))
  | .ok number =>
    moveTo behind
    return number

/-- A directive. -/
def directive : Scanner Token := do
  skip 1
  let name ← nameToken
  if !endsOrSpace (← get).place.rest then malformed
  let token ←
    if name = Text.ofString "YAML" then
      moveTo (← get).place.skipSpaces
      let major ← versionNumber
      if !(← get).place.sees '.' then malformed
      skip 1
      let _ ← versionNumber
      if !endsOrSpace (← get).place.rest then malformed
      pure (.versionDirective major)
    else if name = Text.ofString "TAG" then
      moveTo (← get).place.skipSpaces
      let handle ← tagHandle
      if !(← get).place.sees ' ' then malformed
      moveTo (← get).place.skipSpaces
      let start ← tagText
      if !endsOrSpace (← get).place.rest then malformed
      pure (.tagDirective handle start)
    else
      moveTo ((← get).place.takeWhile fun c => !isBreak c).2
      pure .otherDirective
  let place := (← get).place.skipSpaces.skipComment
  if !endsLine place.rest then malformed
  moveTo place.skipBreak
  return token

/-! ## Tokens -/

/-- A token of one character in a flow collection. -/
def flowOpening (token : Token) : Scanner Unit := do
  openKey
  modify fun s => { s with flow := s.flow + 1 }
  allowKey true
  skip 1
  emit token

/-- A closing bracket of a flow collection. -/
def flowClosing (token : Token) : Scanner Unit := do
  dropKey
  modify fun s => { s with flow := s.flow - 1 }
  allowKey false
  skip 1
  emit token

/-- A comma between entries of a flow collection. -/
def flowComma : Scanner Unit := do
  allowKey true
  dropKey
  skip 1
  emit .flowEntry

/-- The mark of an entry of a block sequence. -/
def entryMark : Scanner Unit := do
  let s ← get
  if s.flow = 0 then
    if !s.keyAllowed then malformed
    if ← indentTo s.place.column then emit .blockSequenceStart
  allowKey true
  dropKey
  skip 1
  emit .blockEntry

/-- The mark of a key. -/
def keyMark : Scanner Unit := do
  let s ← get
  if s.flow = 0 then
    if !s.keyAllowed then malformed
    if ← indentTo s.place.column then emit .blockMappingStart
  allowKey (s.flow = 0)
  dropKey
  skip 1
  emit .key

/-- The mark of a value. What precedes it on its line becomes the key, if it may. -/
def valueMark : Scanner Unit := do
  let s ← get
  match s.keys.lookup s.flow with
  | some key =>
    set { s with keys := s.keys.filter (·.1 ≠ s.flow) }
    emitAt key.token .key
    if s.flow = 0 then
      if ← indentTo key.column then emitAt key.token .blockMappingStart
    allowKey false
  | none =>
    if s.flow = 0 then
      if !s.keyAllowed then malformed
      if ← indentTo s.place.column then emit .blockMappingStart
    allowKey (s.flow = 0)
    dropKey
  skip 1
  emit .value

/-- A reference to an anchor, an anchor or a tag. -/
def property (token : Scanner Token) : Scanner Unit := do
  openKey
  allowKey false
  emit (← token)

/-- A block scalar. -/
def blockText (folded : Bool) : Scanner Unit := do
  allowKey true
  dropKey
  let s ← get
  let (chars, behind) ← blockScalar folded s.indent s.place
  moveTo behind
  emit (.scalar (Text.ofChars chars) false)

/-- A quoted scalar. -/
def quotedText (double : Bool) : Scanner Unit := do
  openKey
  allowKey false
  let (text, behind) ← quotedScalar double (← get).place
  moveTo behind
  emit (.scalar text false)

/-- A plain scalar. -/
def plainText : Scanner Unit := do
  openKey
  let s ← get
  let (chars, crossed, behind) := plainScalar (0 < s.flow) (s.indent + 1) s.place
  moveTo behind
  allowKey crossed
  emit (.scalar (Text.ofChars chars) true)

/-- The marker of the beginning or end of a document, or a directive. -/
def betweenDocuments (token : Scanner Token) : Scanner Unit := do
  unwindTo (-1)
  dropKey
  allowKey false
  emit (← token)

/-- Characters that begin no plain scalar. -/
def indicators : List Char :=
  "-?:,[]\x7b\x7d#&*!|>'\"%@\x60".toList

/-- Whether a plain scalar begins with a character. -/
def beginsPlain (inFlow : Bool) (c : Char) (rest : List Char) : Bool :=
  !(isBlank c || indicators.contains c) ||
    (!endsOrBlank rest && (c = '-' || (!inFlow && (c = '?' || c = ':'))))

/-- The token that begins with a character. -/
def token (c : Char) (rest : List Char) : Scanner Unit := do
  let s ← get
  let inFlow := decide (0 < s.flow)
  let atLineStart := s.place.column = 0
  if c = '%' ∧ atLineStart then betweenDocuments directive
  else if atLineStart ∧ atDocumentMarker (c :: rest) then
    betweenDocuments do
      skip 3
      return if c = '-' then .documentStart else .documentEnd
  else if c = '[' then flowOpening .flowSequenceStart
  else if c = '\x7b' then flowOpening .flowMappingStart
  else if c = ']' then flowClosing .flowSequenceEnd
  else if c = '\x7d' then flowClosing .flowMappingEnd
  else if c = ',' then flowComma
  else if c = '-' ∧ endsOrBlank rest then entryMark
  else if c = '?' ∧ (inFlow ∨ endsOrBlank rest) then keyMark
  else if c = ':' ∧ (inFlow ∨ endsOrBlank rest) then valueMark
  else if c = '*' then property do return .reference (← anchorName)
  else if c = '&' then property do return .anchor (← anchorName)
  else if c = '!' then property do return .tag (← tagMark)
  else if c = '|' ∧ !inFlow then blockText false
  else if c = '>' ∧ !inFlow then blockText true
  else if c = '\'' then quotedText false
  else if c = '"' then quotedText true
  else if beginsPlain inFlow c rest then plainText
  else malformed

/-- Reads the token that the rest of the text begins with; at its end all collections are closed.
Tells whether the end was not yet reached. -/
def nextToken : Scanner Bool := do
  dropStale
  let s ← get
  unwindTo s.place.column
  readRest s.place.rest
where
  /-- What follows once the block collections that end are closed. -/
  readRest : List Char → Scanner Bool
    | [] => do
      unwindTo (-1)
      dropKey
      return false
    | c :: rest => do
      token c rest
      return true

end Scanner

/-- Where the tokens of a text break off: the fault, and the tokens that are settled in front of it. -/
structure TokenBreak where
  fault : Fault
  settled : List Token

/-- Reads something, and if that ends in a fault, keeps the tokens that are settled before. -/
def Scanner.orBreak {α : Type} (reader : Scanner α) : StateT Scan (Except TokenBreak) α :=
  fun s => (reader.run s).mapError fun fault => ⟨fault, s.settled⟩

/-- All tokens up to the end of the text. -/
def Scanner.tokens (lines : Nat) : Nat → StateT Scan (Except TokenBreak) Unit
  | 0 => Scanner.orBreak malformed
  | fuel + 1 => do
    let goesOn ← Scanner.orBreak (skipToToken lines >>= fun _ => nextToken)
    if goesOn then tokens lines fuel

/-- Whether a character may stand in a YAML text. -/
def isPrintable (c : Char) : Bool :=
  let n := c.toNat
  c = '\t' || c = '\n' || c = '\r' || (0x20 ≤ n && n ≤ 0x7E) || n = 0x85 ||
    (0xA0 ≤ n && n ≤ 0xD7FF) || (0xE000 ≤ n && n ≤ 0xFFFD) || 0x10000 ≤ n

/-- The tokens of a text, and the fault that they break off with, if there is one; a byte order mark at
the beginning of the text does not count. -/
def readTokens (text : List Char) : List Token × Option Fault :=
  if text.all isPrintable then
    let place :=
      match text with
      | '\uFEFF' :: _ => (Place.start text).step
      | _ => Place.start text
    let first : Scan := ⟨place, 0, -1, [], true, [], [], 0⟩
    let size := text.length + 2
    match (Scanner.tokens size size).run first with
    | .ok (_, last) => (last.tokens.reverse, none)
    | .error stop => (stop.settled, some stop.fault)
  else ([], some .malformed)

end Yaml

end ProgramInterface
