import ProgramInterface.Yaml.Resolve
import ProgramInterface.Yaml.Token

/-!
# Nodes of a YAML text

The tokens of a text make up one document, whose nodes are scalars, sequences and mappings with their
tags. A collection names the nodes in it by their numbers, so that a reference names the very node
that it stands for, even from inside that node.
-/

namespace ProgramInterface

namespace Yaml

/-- A node; the nodes in it are given by their numbers. -/
inductive Node where
  | scalar (tag : Tag) (content : Text)
  | sequence (tag : Tag) (items : List Nat)
  | mapping (tag : Tag) (members : List (Nat × Nat))

/-- The tag of a node. -/
def Node.tag : Node → Tag
  | scalar tag _ => tag
  | sequence tag _ => tag
  | mapping tag _ => tag

/-- The state of reading nodes: the tokens that are left and the fault that they break off with, the
numbers of the nodes that have names, the meaning of the handles of tags, and the nodes by number. -/
structure Reading where
  tokens : List Token
  fault : Option Fault
  anchors : List (Text × Nat)
  handles : List (Text × Text)
  nodes : Array Node

/-- Reads nodes, or ends in a fault. -/
abbrev NodeReader := StateT Reading (Except Fault)

namespace NodeReader

/-- Ends in the fault that a text is malformed. -/
def malformed {α : Type} : NodeReader α :=
  throw .malformed

/-- The next token; the fault that the tokens break off with is met when they are used up. -/
def peek : NodeReader (Option Token) := do
  let s ← get
  match s.tokens, s.fault with
  | token :: _, _ => return some token
  | [], none => return none
  | [], some fault => throw fault

/-- Moves over the next token. -/
def skip : NodeReader Unit :=
  modify fun s => { s with tokens := s.tokens.tail }

/-- The node of a scalar without text. -/
def empty : Node :=
  .scalar .null []

/-- The properties in front of a node: an anchor and a tag, in either order. -/
def properties : NodeReader (Option Text × Option TagMark) := do
  match ← peek with
  | some (.anchor name) =>
    skip
    match ← peek with
    | some (.tag mark) =>
      skip
      return (some name, some mark)
    | _ => return (some name, none)
  | some (.tag mark) =>
    skip
    match ← peek with
    | some (.anchor name) =>
      skip
      return (some name, some mark)
    | _ => return (none, some mark)
  | _ => return (none, none)

/-- The full name of a tag; a lone exclamation mark is no name. -/
def tagName (mark : Option TagMark) : NodeReader (Option Text) := do
  match mark with
  | none => return none
  | some ⟨none, suffix⟩ => return if suffix = Text.ofString "!" then none else some suffix
  | some ⟨some handle, suffix⟩ =>
    match (← get).handles.lookup handle with
    | none => malformed
    | some start =>
      let name := start ++ suffix
      return if name = Text.ofString "!" then none else some name

/-- Gives a node the next number, and the name of its anchor if it has one, which must be new. -/
def begin (anchor : Option Text) (node : Node) : NodeReader Nat := do
  let s ← get
  let number := s.nodes.size
  match anchor with
  | none => set { s with nodes := s.nodes.push node }
  | some name =>
    if (s.anchors.lookup name).isSome then malformed
    set { s with nodes := s.nodes.push node, anchors := (name, number) :: s.anchors }
  return number

/-- A node that is given a number before the nodes in it are read. -/
def whole (anchor : Option Text) (inside : NodeReader Node) (start : Node) : NodeReader Nat := do
  let number ← begin anchor start
  let node ← inside
  modify fun s => { s with nodes := s.nodes.setIfInBounds number node }
  return number

/-- The number of the node that a reference stands for. -/
def referenced (name : Text) : NodeReader Nat := do
  match (← get).anchors.lookup name with
  | none => malformed
  | some number => return number

/-- The tag of a collection. -/
def collectionTag (name : Option Text) (default : Tag) : Tag :=
  (name.map Tag.ofName).getD default

/-- The node of a scalar. A plain one without a tag, or any with a lone exclamation mark as its tag,
has the tag that its text tells. -/
def scalarNode (name : Option Text) (mark : Option TagMark) (content : Text) (isPlain : Bool) :
    Node :=
  match name with
  | some name => .scalar (.ofName name) content
  | none => .scalar (if isPlain ∨ mark.isSome then implicitTag content else .str) content

/-- Where a node stands: a block node may be a block collection, and in some places also a sequence
whose entries are not moved in. -/
inductive Position where
  | block
  | blockOrSequence
  | flow
  deriving DecidableEq

/-- Whether the next token is one after which a node is left out. -/
def nextIs (p : Token → Bool) : NodeReader Bool := do
  return (← peek).any p

/-- Tokens that end a member of a block mapping. -/
def endsMember : Token → Bool
  | .key | .value | .blockEnd => true
  | _ => false

/-- Tokens that end an entry of a block sequence. -/
def endsEntry : Token → Bool
  | .blockEntry | .blockEnd => true
  | _ => false

/-- Tokens that end an entry of a sequence that is not moved in. -/
def endsFlatEntry : Token → Bool
  | .blockEntry | .key | .value | .blockEnd => true
  | _ => false

/-- Tokens that end an entry of a flow sequence. -/
def endsFlowEntry : Token → Bool
  | .flowEntry | .flowSequenceEnd => true
  | _ => false

/-- Tokens that end a member of a flow mapping. -/
def endsFlowMember : Token → Bool
  | .flowEntry | .flowMappingEnd => true
  | _ => false

/-- Reads the nodes inside a node and gives their numbers. -/
abbrev SubReader := Position → NodeReader Nat

/-- A node that has properties and nothing else. -/
def emptyNode (anchor name : Option Text) (mark : Option TagMark) : NodeReader Nat := do
  if anchor.isNone && mark.isNone then malformed
  begin anchor (scalarNode name mark [] true)

/-- A node, or an empty one if the next token ends the part that it stands in. -/
def nodeOrEmpty (sub : SubReader) (ends : Token → Bool) (position : Position) :
    NodeReader Nat := do
  if ← nextIs ends then begin none empty else sub position

/-- The entries of a block sequence, those read before last first. -/
def blockItems (sub : SubReader) (done : List Nat) : Nat → NodeReader (List Nat)
  | 0 => malformed
  | fuel + 1 => do
    match ← peek with
    | some .blockEntry =>
      skip
      let item ← nodeOrEmpty sub endsEntry .block
      blockItems sub (item :: done) fuel
    | some .blockEnd =>
      skip
      return done.reverse
    | _ => malformed

/-- The entries of a sequence that is not moved in. -/
def flatItems (sub : SubReader) (done : List Nat) : Nat → NodeReader (List Nat)
  | 0 => malformed
  | fuel + 1 => do
    match ← peek with
    | some .blockEntry =>
      skip
      let item ← nodeOrEmpty sub endsFlatEntry .block
      flatItems sub (item :: done) fuel
    | _ => return done.reverse

/-- The value of a member of a mapping; without the mark of a value it is empty. -/
def memberValue (sub : SubReader) (ends : Token → Bool) (position : Position) :
    NodeReader Nat := do
  match ← peek with
  | some .value =>
    skip
    nodeOrEmpty sub ends position
  | _ => begin none empty

/-- The members of a block mapping. -/
def blockMembers (sub : SubReader) (done : List (Nat × Nat)) :
    Nat → NodeReader (List (Nat × Nat))
  | 0 => malformed
  | fuel + 1 => do
    match ← peek with
    | some .key =>
      skip
      let key ← nodeOrEmpty sub endsMember .blockOrSequence
      let value ← memberValue sub endsMember .blockOrSequence
      blockMembers sub ((key, value) :: done) fuel
    | some .blockEnd =>
      skip
      return done.reverse
    | _ => malformed

/-- The comma between two parts of a flow collection, which the first part lacks. -/
def flowComma (first : Bool) : NodeReader Unit := do
  if !first then
    match ← peek with
    | some .flowEntry => skip
    | _ => malformed

/-- A member of a flow collection that has the mark of a key. -/
def flowMember (sub : SubReader) (ends : Token → Bool) : NodeReader (Nat × Nat) := do
  let endsKey (t : Token) : Bool :=
    match t with
    | .value => true
    | t => ends t
  let key ← nodeOrEmpty sub endsKey .flow
  let value ← memberValue sub ends .flow
  return (key, value)

/-- The entries of a flow sequence; an entry with a key is a mapping of its own. -/
def flowItems (sub : SubReader) (first : Bool) (done : List Nat) : Nat → NodeReader (List Nat)
  | 0 => malformed
  | fuel + 1 => do
    if let some .flowSequenceEnd ← peek then
      skip
      return done.reverse
    flowComma first
    match ← peek with
    | some .key =>
      skip
      let inside := do
        let member ← flowMember sub endsFlowEntry
        return .mapping .map [member]
      let item ← whole none inside (.mapping .map [])
      flowItems sub false (item :: done) fuel
    | some .flowSequenceEnd =>
      skip
      return done.reverse
    | _ =>
      let item ← sub .flow
      flowItems sub false (item :: done) fuel

/-- The members of a flow mapping; a member without the mark of a key has no value. -/
def flowMembers (sub : SubReader) (first : Bool) (done : List (Nat × Nat)) :
    Nat → NodeReader (List (Nat × Nat))
  | 0 => malformed
  | fuel + 1 => do
    if let some .flowMappingEnd ← peek then
      skip
      return done.reverse
    flowComma first
    match ← peek with
    | some .key =>
      skip
      let member ← flowMember sub endsFlowMember
      flowMembers sub false (member :: done) fuel
    | some .flowMappingEnd =>
      skip
      return done.reverse
    | _ =>
      let key ← sub .flow
      let _ ← peek
      let value ← begin none empty
      flowMembers sub false ((key, value) :: done) fuel

/-- A sequence, given how the nodes in it are read. -/
def sequence (anchor name : Option Text) (items : NodeReader (List Nat)) : NodeReader Nat :=
  let tag := collectionTag name .seq
  whole anchor (do return .sequence tag (← items)) (.sequence tag [])

/-- A mapping, given how the nodes in it are read. -/
def mapping (anchor name : Option Text) (members : NodeReader (List (Nat × Nat))) :
    NodeReader Nat :=
  let tag := collectionTag name .map
  whole anchor (do return .mapping tag (← members)) (.mapping tag [])

/-- A node at some position, given how the nodes inside it are read. -/
def nodeWith (sub : SubReader) (size : Nat) (position : Position) : NodeReader Nat := do
  match ← peek with
  | some (.reference name) =>
    skip
    referenced name
  | _ =>
    let (anchor, mark) ← properties
    let name ← tagName mark
    match ← peek with
    | some (.scalar content isPlain) =>
      skip
      begin anchor (scalarNode name mark content isPlain)
    | some .flowSequenceStart => sequence anchor name (do skip; flowItems sub true [] size)
    | some .flowMappingStart => mapping anchor name (do skip; flowMembers sub true [] size)
    | some .blockSequenceStart =>
      if position = .flow then malformed
      sequence anchor name (do skip; blockItems sub [] size)
    | some .blockMappingStart =>
      if position = .flow then malformed
      mapping anchor name (do skip; blockMembers sub [] size)
    | some .blockEntry =>
      if position = .blockOrSequence then sequence anchor name (flatItems sub [] size)
      else emptyNode anchor name mark
    | _ => emptyNode anchor name mark

/-- A node at some position, with nodes inside each other up to a depth. -/
def node (size : Nat) : Nat → SubReader
  | 0, _ => malformed
  | depth + 1, position => nodeWith (node size depth) size position

/-- The handles of tags that need no directive. -/
def defaultHandles : List (Text × Text) :=
  [("!", "!"), ("!!", Tag.standardStart)]

/-- The directives in front of a document, which must then begin with a marker. -/
def directives (versions : Nat) (own : List (Text × Text)) : Nat → NodeReader Unit
  | 0 => malformed
  | fuel + 1 => do
    match ← peek with
    | some (.versionDirective major) =>
      skip
      if 0 < versions ∨ major ≠ 1 then malformed
      directives 1 own fuel
    | some (.tagDirective handle start) =>
      skip
      if (own.lookup handle).isSome then malformed
      directives versions ((handle, start) :: own) fuel
    | some .otherDirective =>
      skip
      directives versions own fuel
    | some .documentStart =>
      skip
      modify fun s => { s with handles := own ++ defaultHandles }
    | _ => malformed

/-- Moves over markers of the end of a document. -/
def skipEnds : Nat → NodeReader Unit
  | 0 => pure ()
  | fuel + 1 => do
    if let some .documentEnd ← peek then
      skip
      skipEnds fuel

/-- Tokens in front of which a document has no node. -/
def endsDocument : Token → Bool
  | .versionDirective _ | .tagDirective _ _ | .otherDirective | .documentStart | .documentEnd => true
  | _ => false

/-- The node of the one document of a text, if there is any; a second one is a fault. -/
def document (size : Nat) : NodeReader (Option Nat) := do
  match ← peek with
  | none => return none
  | some first =>
    let isExplicit : Bool :=
      match first with
      | .documentEnd => false
      | token => endsDocument token
    let root ←
      if isExplicit then
        directives 0 [] size
        if ((← peek).all endsDocument) then begin none empty else node size size .block
      else node size size .block
    skipEnds size
    if (← peek).isSome then
      directives 0 [] size
      malformed
    return some root

end NodeReader

/-- The nodes of a document by number, and the number of the outermost one. -/
structure Graph where
  nodes : Array Node
  root : Nat

/-- The nodes of the one document of a text, if there is any. -/
def readGraph (text : List Char) : Except Fault (Option Graph) := do
  let (tokens, fault) := readTokens text
  let size := 2 * tokens.length + 8
  let (root, last) ← (NodeReader.document size).run
    ⟨tokens, fault, [], NodeReader.defaultHandles, #[]⟩
  return root.map fun root => ⟨last.nodes, root⟩

end Yaml

end ProgramInterface
