import ProgramInterface.Yaml.Node
import ProgramInterface.Yaml.Value

/-!
# Values of YAML nodes

What the nodes of a text say once their tags are carried out. A collection is made empty at first and
waits to be filled; the collections that wait are filled in the order in which they were made, so that
a collection may stand inside itself. A mapping that merges others puts their members in front of its
own, so that its own members win.
-/

namespace ProgramInterface

namespace Yaml

/-- What is made of a node: a value without parts, or a collection whose parts are given by the numbers
of their nodes. Keys have no parts. -/
inductive Object where
  | simple (value : Value)
  | list (items : List Nat)
  | pairs (items : List (Nat × Nat))
  | set (items : List Value)
  | mapping (members : List (Value × Nat))

/-- Whether an object is a mapping. -/
def Object.isMapping : Object → Bool
  | mapping _ => true
  | _ => false

/-- The state of making objects: the nodes, what is made of each of them so far, and the collections
that wait to be filled, the last one first. -/
structure Making where
  nodes : Array Node
  objects : Array (Option Object)
  waiting : List Nat

/-- Makes objects, or ends in a fault. -/
abbrev Maker := StateT Making (Except Fault)

namespace Maker

/-- Ends in the fault that a text is malformed. -/
def malformed {α : Type} : Maker α :=
  throw .malformed

/-- The node with a number. -/
def node (number : Nat) : Maker Node := do
  match (← get).nodes[number]? with
  | some node => return node
  | none => malformed

/-- Whether the node with a number has a tag. -/
def hasTag (tag : Tag) (number : Nat) : Maker Bool := do
  return (← node number).tag = tag

/-- Puts another node in the place of one. -/
def setNode (number : Nat) (node : Node) : Maker Unit :=
  modify fun s => { s with nodes := s.nodes.setIfInBounds number node }

/-- Keeps what is made of a node. -/
def setObject (number : Nat) (object : Object) : Maker Unit :=
  modify fun s => { s with objects := s.objects.setIfInBounds number (some object) }

/-! ## Scalars -/

/-- The text of a node: that of a scalar, or that of the default value of a mapping. A mapping that is
its own default value is looked for in itself until `depth` is used up. -/
def textOf : Nat → Nat → Maker Text
  | 0, _ => throw (@Fault.overflow .depth)
  | depth + 1, number => do
    match ← node number with
    | .scalar _ content => return content
    | .sequence _ _ => malformed
    | .mapping _ members =>
      match ← members.findM? fun member => hasTag .value member.1 with
      | some (_, value) => textOf depth value
      | none => malformed

/-- What a node is at first, by its tag: a value without parts, or an empty collection. -/
def start (number : Nat) : Maker Object := do
  let node ← node number
  match node.tag with
  | .seq => return .list []
  | .omap | .pairs => return .pairs []
  | .set => return .set []
  | .map => return .mapping []
  | .merge | .value | .other _ => malformed
  | tag =>
    let content ← textOf ((← get).nodes.size + 1) number
    match tag, node with
    | .timestamp, .mapping _ _ => throw (.value "expected string or bytes-like object, got 'list'")
    | _, _ => return .simple (← readScalar tag content)

/-- Makes an object of a node, if none is made yet. A collection then waits to be filled. -/
def make (number : Nat) : Maker Object := do
  match ((← get).objects[number]?).join with
  | some object => return object
  | none =>
    let object ← start number
    setObject number object
    match object with
    | .simple _ => return object
    | _ =>
      modify fun s => { s with waiting := number :: s.waiting }
      return object

/-! ## Collections -/

/-- The first of some members that merges others, by its value, and the members without it; `before` are
those in front, the last one first. -/
def splitMerge (before : List (Nat × Nat)) :
    List (Nat × Nat) → Maker (Option (Nat × List (Nat × Nat)))
  | [] => return none
  | (key, value) :: rest => do
    if ← hasTag .merge key then return some (value, before.reverse ++ rest)
    else splitMerge ((key, value) :: before) rest

/-- The members of a mapping. -/
def membersOf (number : Nat) : Maker (List (Nat × Nat)) := do
  match ← node number with
  | .mapping _ members => return members
  | _ => malformed

/-- Gives a mapping other members. -/
def setMembers (number : Nat) (members : List (Nat × Nat)) : Maker Unit := do
  match ← node number with
  | .mapping tag _ => setNode number (.mapping tag members)
  | _ => malformed

/-- Makes a key with the sign for a default value a text. -/
def settleKey (key : Nat) : Maker Unit := do
  match ← node key with
  | .scalar .value content => setNode key (.scalar .str content)
  | .sequence .value items => setNode key (.sequence .str items)
  | .mapping .value members => setNode key (.mapping .str members)
  | _ => pure ()

/-- The mappings that a node names for merging: itself, or those in it. -/
def sourcesOf (number : Nat) : Maker (List Nat) := do
  match ← node number with
  | .mapping _ _ => return [number]
  | .sequence _ items => return items
  | .scalar _ _ => malformed

/-- Puts `merged` and the members of all mappings that a mapping merges in front of its own. A mapping
may merge one that merges it in turn, since a member that merges others is taken out first; `fuel`
bounds how often that can be done. -/
def merge (merged : List (Nat × Nat)) : Nat → Nat → Maker Unit
  | 0, _ => malformed
  | fuel + 1, number => do
    match ← node number with
    | .mapping tag members =>
      match ← splitMerge [] members with
      | none =>
        members.forM fun member => settleKey member.1
        setMembers number (merged ++ members)
      | some (source, others) =>
        setNode number (.mapping tag others)
        let parts ← (← sourcesOf source).mapM fun part => do
          merge [] fuel part
          membersOf part
        merge (merged ++ parts.reverse.flatten) fuel number
    | _ => malformed

/-- The number of members of all mappings. -/
def memberCount (nodes : Array Node) : Nat :=
  nodes.foldl (fun count node =>
    match node with
    | .mapping _ members => count + members.length
    | _ => count) 0

/-- Makes a member of a mapping behind others. -/
def makeMember (done : List (Value × Nat)) (member : Nat × Nat) : Maker (List (Value × Nat)) := do
  match ← make member.1 with
  | .simple key =>
    let _ ← make member.2
    return putMember done key member.2
  | _ => malformed

/-- Makes the members of a mapping, those that it merges among them. -/
def makeMembers (number : Nat) : Maker (List (Value × Nat)) := do
  merge [] (memberCount (← get).nodes + 1) number
  (← membersOf number).foldlM makeMember []

/-- The items of a sequence. -/
def itemsOf (number : Nat) : Maker (List Nat) := do
  match ← node number with
  | .sequence _ items => return items
  | _ => malformed

/-- Makes the key and the value of a mapping with one member. -/
def makePair (number : Nat) : Maker (Nat × Nat) := do
  match ← membersOf number with
  | [(key, value)] =>
    let _ ← make key
    let _ ← make value
    return (key, value)
  | _ => malformed

/-- Fills a collection that waits. -/
def fill (number : Nat) : Maker Unit := do
  match ← make number with
  | .simple _ => pure ()
  | .list _ =>
    let items ← itemsOf number
    items.forM fun item => do let _ ← make item
    setObject number (.list items)
  | .pairs _ => setObject number (.pairs (← (← itemsOf number).mapM makePair))
  | .set _ => setObject number (.set ((← makeMembers number).map (·.1)))
  | .mapping _ => setObject number (.mapping (← makeMembers number))

/-- Fills the collections that wait, and those that are made meanwhile; `fuel` bounds how often some
wait. -/
def fillAll : Nat → Maker Unit
  | 0 => pure ()
  | fuel + 1 => do
    let waiting := (← get).waiting
    if !waiting.isEmpty then
      modify fun s => { s with waiting := [] }
      waiting.reverse.forM fill
      fillAll fuel

end Maker

/-! ## Values -/

/-- The value of an object, given the objects of all nodes and the numbers of the collections around it.
A collection that stands around itself is a loop, but the outermost `levels` of them do not count;
`depth` bounds how many there can be inside each other. -/
def valueAt (objects : Array (Option Object)) : Nat → Nat → List Nat → Nat → Value
  | 0, _, _, _ => .null
  | depth + 1, levels, around, number =>
    match (objects[number]?).join with
    | none => .null
    | some object =>
      if around.contains number then .loop object.isMapping
      else
        let sub := valueAt objects depth (levels - 1) (if levels = 0 then number :: around else around)
        match object with
        | .simple value => value
        | .list items => .list (items.map sub)
        | .pairs items => .list (items.map fun (key, value) => .pair (sub key) (sub value))
        | .set items => .set items
        | .mapping members => .mapping (members.map fun (key, value) => (key, sub value))

/-- The value of a document. The members of the mappings in a mapping are taken out of it one by one, so
a loop in one of them leads back to itself and not further. -/
def Graph.value (graph : Graph) : Except Fault Value := do
  let size := graph.nodes.size
  let first : Making := ⟨graph.nodes, Array.replicate size none, []⟩
  let ((), last) ← (Maker.make graph.root >>= fun _ => Maker.fillAll (size + 1)).run first
  return valueAt last.objects (size + 3) 2 [] graph.root

/-- The value of the one document of a text; an empty text is null. -/
def read (text : List Char) : Except Fault Value := do
  match ← readGraph text with
  | none => return .null
  | some graph => graph.value

end Yaml

end ProgramInterface
