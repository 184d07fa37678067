import ProgramInterface.Grammar.Lexical
import ProgramInterface.Syntax.Node

/-!
# Drafts of syntax trees

A reader goes through a source from left to right and collects the nodes it builds. It either reads
something at the head of what is left or fails and leaves the draft as it was, so that another reader
may try. White space and comments behind a token are skipped with it; the comments become children
of the node that the next token is put into.
-/

namespace ProgramInterface

/-- A tree under construction: the rest of the source and its byte offset, the end of the last token,
the comments read behind that token (the last one first), the nodes built so far in the current
parent (the last one first), and a bound for every repetition. -/
structure Draft where
  rest : List Char
  offset : Nat
  stop : Nat
  pending : List Node
  done : List Node
  bound : Nat

/-- Reads something at the head of a source, or fails. -/
abbrev Reader := StateT Draft Option

namespace Draft

/-- The number of bytes of some characters. -/
def byteSize (chars : List Char) : Nat :=
  chars.foldl (fun n c => n + c.utf8Size) 0

/-- The first characters of a text that together have a number of bytes. -/
def takeBytes : Nat → List Char → List Char → List Char
  | _, taken, [] => taken.reverse
  | bytes, taken, c :: rest =>
    if bytes = 0 then taken.reverse else takeBytes (bytes - c.utf8Size) (c :: taken) rest

/-- A node without children that has the first `n` characters of the rest as its text. -/
def leaf (kind : Kind) (isNamed : Bool) (role : Option Role) (n : Nat) (draft : Draft) : Node :=
  let text := draft.rest.take n
  ⟨kind, isNamed, role, draft.offset, draft.offset + byteSize text, String.ofList text, []⟩

/-- The draft after a leaf that begins its rest and has `n` characters. -/
def after (node : Node) (n : Nat) (draft : Draft) : Draft :=
  { draft with rest := draft.rest.drop n, offset := node.stop }

/-- White space and comments skipped; `fuel` bounds how many runs of them. A comment without an end is
an error of the source. -/
def skipGapFrom : Nat → Draft → Draft
  | 0, draft => draft
  | fuel + 1, draft =>
    match draft.rest with
    | [] => draft
    | c :: rest =>
      if Lexical.isGap c then
        skipGapFrom fuel { draft with rest, offset := draft.offset + c.utf8Size }
      else
        match Lexical.comment? draft.rest with
        | none => draft
        | some (shape, n) =>
          let kind : Kind :=
            match shape with
            | .line => .lineComment
            | .block => .blockComment
            | .unclosed => .error
          let node := draft.leaf kind true none n
          let next := draft.after node n
          skipGapFrom fuel { next with pending := node :: next.pending }

/-- White space and comments skipped. -/
def skipGap (draft : Draft) : Draft :=
  skipGapFrom draft.bound draft

/-- The comments behind the last token put into the current parent. -/
def flush (draft : Draft) : Draft :=
  { draft with done := draft.pending ++ draft.done, pending := [] }

/-- The first `n` characters put into the current parent as a leaf. -/
def push (kind : Kind) (isNamed : Bool) (role : Option Role) (n : Nat) (draft : Draft) : Draft :=
  let draft := draft.flush
  let node := draft.leaf kind isNamed role n
  let next := draft.after node n
  skipGap { next with stop := node.stop, done := node :: next.done }

/-- The text from the head of the rest up to a byte offset. -/
def textTo (stop : Nat) (draft : Draft) : String :=
  String.ofList (takeBytes (stop - draft.offset) [] draft.rest)

end Draft

namespace Reader

/-- Fails. -/
def refuse {α : Type} : Reader α :=
  fun _ => none

/-- What is left of the source. -/
def rest : Reader (List Char) :=
  fun draft => some (draft.rest, draft)

/-- Whether the source is read to its end. -/
def atEnd : Reader Bool :=
  fun draft => some (draft.rest.isEmpty, draft)

/-- Whether the rest begins with a text, which may go on as a longer sign. -/
def sees (text : String) : Reader Bool :=
  fun draft => some (text.toList.isPrefixOf draft.rest, draft)

/-- Whether the rest begins with exactly this sign. -/
def atSign (sign : String) : Reader Bool :=
  fun draft => some (Lexical.sign draft.rest == sign.toList, draft)

/-- Whether the rest begins with this word. -/
def atWord (word : String) : Reader Bool :=
  fun draft => some (Lexical.beginsWithWord word.toList draft.rest, draft)

/-- Whether a reader would succeed here; nothing is read. -/
def wouldRead {α : Type} (reader : Reader α) : Reader Bool :=
  fun draft => some ((reader draft).isSome, draft)

/-- A leaf of `n` characters. -/
def leaf (kind : Kind) (isNamed : Bool) (role : Option Role) (n : Nat) : Reader Unit :=
  fun draft => some ((), draft.push kind isNamed role n)

/-- A named leaf whose length is told by a lexical function. -/
def lexeme (kind : Kind) (role : Option Role) (length? : List Char → Option Nat) : Reader Unit :=
  fun draft =>
    match length? draft.rest with
    | some n => some ((), draft.push kind true role n)
    | none => none

/-- A piece of text as an unnamed leaf. -/
def token (text : String) : Reader Unit :=
  fun draft =>
    if text.toList.isPrefixOf draft.rest then
      some ((), draft.push .token false none text.toList.length)
    else none

/-- A sign as an unnamed leaf. -/
def sign (text : String) : Reader Unit :=
  fun draft =>
    if Lexical.sign draft.rest = text.toList then
      some ((), draft.push .token false none text.toList.length)
    else none

/-- A word as an unnamed leaf. -/
def word (text : String) : Reader Unit :=
  fun draft =>
    if Lexical.beginsWithWord text.toList draft.rest then
      some ((), draft.push .token false none text.toList.length)
    else none

/-- A reader that may be left out. -/
def optional (reader : Reader Unit) : Reader Unit :=
  fun draft =>
    match reader draft with
    | some result => some result
    | none => some ((), draft)

/-- The first of two readers that succeeds. -/
def orElse {α : Type} (first second : Reader α) : Reader α :=
  fun draft =>
    match first draft with
    | some result => some result
    | none => second draft

/-- As many repetitions of a reader as succeed, up to a bound. -/
def manyFrom (reader : Reader Unit) : Nat → Draft → Draft
  | 0, draft => draft
  | fuel + 1, draft =>
    match reader draft with
    | some ((), next) => manyFrom reader fuel next
    | none => draft

/-- As many repetitions of a reader as succeed. -/
def many (reader : Reader Unit) : Reader Unit :=
  fun draft => some ((), manyFrom reader draft.bound draft)

/-- Repetitions of a reader for as long as it asks for another one, up to a bound. -/
def whileTrueFrom (reader : Reader Bool) : Nat → Draft → Option (Unit × Draft)
  | 0, draft => some ((), draft)
  | fuel + 1, draft =>
    match reader draft with
    | some (true, next) => whileTrueFrom reader fuel next
    | some (false, next) => some ((), next)
    | none => none

/-- Repetitions of a reader for as long as it asks for another one. -/
def whileTrue (reader : Reader Bool) : Reader Unit :=
  fun draft => whileTrueFrom reader draft.bound draft

/-- Items with commas between them, up to a closing bracket that is not read. -/
def separated (closing : String) (item : Reader Unit) : Reader Unit :=
  whileTrue do
    if ← sees closing then return false
    item
    if ← sees "," then
      token ","
      return true
    return false

/-- Items with commas between them, in brackets. -/
def bracketed (opening closing : String) (item : Reader Unit) : Reader Unit := do
  token opening
  separated closing item
  token closing

/-- Reads with an empty list of siblings; what was built is put behind the siblings so far. -/
def apart {α : Type} (reader : Reader α) : Reader α :=
  fun draft =>
    let draft := draft.flush
    match reader { draft with done := [] } with
    | some (result, inner) => some (result, { inner with done := inner.done ++ draft.done })
    | none => none

/-- The place where a node begins. -/
def mark : Reader Draft :=
  fun draft => some (draft, draft)

/-- All nodes built in the current parent become the children of one node that begins at `origin`. -/
def fold (origin : Draft) (kind : Kind) (role : Option Role) : Reader Unit :=
  fun draft =>
    let node : Node :=
      ⟨kind, true, role, origin.offset, draft.stop, origin.textTo draft.stop, draft.done.reverse⟩
    some ((), { draft with done := [node] })

/-- What a reader builds becomes the children of one node. -/
def branch (kind : Kind) (role : Option Role) (reader : Reader Unit) : Reader Unit :=
  apart do
    let origin ← mark
    reader
    fold origin kind role

/-- The node built last plays a given role. -/
def setRole (role : Role) : Reader Unit :=
  fun draft =>
    match draft.done with
    | node :: rest => some ((), { draft with done := { node with role := some role } :: rest })
    | [] => some ((), draft)

/-- The kind of the node built last. -/
def lastKind : Reader (Option Kind) :=
  fun draft => some (draft.done.head?.map (·.kind), draft)

end Reader

end ProgramInterface
