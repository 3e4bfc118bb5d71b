import TournamentDraw.Yaml.Node
import TournamentDraw.Yaml.Tag
import TournamentDraw.Yaml.Token.Stream

/-!
# From tokens to a document

The tokens of a stream are read into at most one document, by the grammar of YAML:

* the stream holds an implicit document, or directives and an explicit document marked by
  `---`; document end markers `...` may stand around it. A second document is refused;
* a node is an alias, or an optional anchor and tag (in either order) followed by a scalar, a
  flow collection, or in block context a block collection; an anchor or tag alone stands for
  an empty scalar;
* a block sequence is a run of `-` entries, and in a block mapping the value of a key may
  also be such a run at the key's own indentation; a block mapping is a run of keys, each
  with an optional value;
* a flow sequence is a bracketed list of nodes separated by commas, where an entry with a key
  is a mapping of one pair; a flow mapping is a braced list of pairs, a key without a value
  taking an empty one.

An empty entry, key or value is an empty plain scalar, which is null. A tag handle must be
declared (`!` and `!!` always are). An alias must follow its anchor, and an anchor may not
be given twice. Each node is numbered when it starts, so a collection's number is fixed
before its children are read.

Every loop step and every nested node reads a token, or stands for an empty node right after
a token was read; the fuel, a multiple of the text's length, bounds them.
-/

namespace TournamentDraw.Yaml

/-- The state of reading a document: its nodes so far, its anchors, and its tag handles. -/
structure Composing where
  nodes : Array Node
  anchors : List (String × NodeId)
  handles : List (String × String)
  deriving Repr

/-- Reading a document from the token stream. -/
abbrev Compose := StateT Composing Scan

/-- The tag handles every document knows. -/
def defaultHandles : List (String × String) :=
  [("!", "!"), ("!!", Tag.yamlPrefix)]

namespace Compose

/-- The next token, without taking it. -/
def peek : Compose Token := liftM Scan.peek

/-- Take the next token. -/
def next : Compose Unit := do
  let _ ← (liftM Scan.next : Compose Token)

/-- Whether the next token is one of the given ones. -/
def nextIs (ts : List Token) : Compose Bool := do
  return ts.contains (← peek)

/-- Number a node, under an anchor if one is given. -/
def start (anchor : Option String) (n : Node) : Compose NodeId := do
  let s ← get
  let id := s.nodes.size
  set { s with nodes := s.nodes.push n,
               anchors := match anchor with
                 | some a => s.anchors ++ [(a, id)]
                 | none => s.anchors }
  return id

/-- Give a numbered node its content. -/
def finish (id : NodeId) (n : Node) : Compose NodeId := do
  modify fun s => { s with nodes := s.nodes.setIfInBounds id n }
  return id

/-- An empty plain scalar, which is null. -/
def empty : Compose NodeId :=
  start none (.scalar (scalarTag none true "") "")

/-- The anchor and tag before a node, in either order; the tag with its handle resolved. -/
def properties : Compose (Option String × Option String) := do
  let (anchor, tag) ← match ← peek with
    | .anchor a => do
      next
      match ← peek with
      | .tag h s => next; pure (some a, some (h, s))
      | _ => pure (some a, none)
    | .tag h s => do
      next
      match ← peek with
      | .anchor a => next; pure (some a, some (h, s))
      | _ => pure (none, some (h, s))
    | _ => pure (none, none)
  let tag ← match tag with
    | some (some h, s) =>
      match (← get).handles.lookup h with
      | some p => pure (some (p ++ s))
      | none => throw .malformed
    | some (none, s) => pure (some s)
    | none => pure none
  return (anchor, tag)

/-- The tag of a collection: the tag given, or that of its kind. -/
def collectionTag (given : Option String) (kindTag : String) : String :=
  match given with
  | some "!" | none => kindTag
  | some t => t

mutual

/-- A node: in block context (`block`) block collections may start here, and in a mapping's
key or value (`indentless`) a run of `-` entries is a sequence. -/
def node : Nat → Bool → Bool → Compose NodeId
  | 0, _, _ => throw .malformed
  | fuel + 1, block, indentless => do
    if let .alias name := ← peek then
      next
      match (← get).anchors.lookup name with
      | some id => return id
      | none => throw .malformed
    let (anchor, tag) ← properties
    if let some a := anchor then
      if ((← get).anchors.lookup a).isSome then throw .malformed
    let t ← peek
    if indentless && t == .blockEntry then
      let id ← start anchor default
      let items ← indentlessItems fuel []
      finish id (.sequence (collectionTag tag Tag.seq) items)
    else match t with
      | .scalar text style =>
        next
        start anchor (.scalar (scalarTag tag (style == .plain) text) text)
      | .flowSequenceStart =>
        next
        let id ← start anchor default
        let items ← flowItems fuel true []
        finish id (.sequence (collectionTag tag Tag.seq) items)
      | .flowMappingStart =>
        next
        let id ← start anchor default
        let pairs ← flowPairs fuel true []
        finish id (.mapping (collectionTag tag Tag.map) pairs)
      | .blockSequenceStart =>
        if !block then throw .malformed
        next
        let id ← start anchor default
        let items ← blockItems fuel []
        finish id (.sequence (collectionTag tag Tag.seq) items)
      | .blockMappingStart =>
        if !block then throw .malformed
        next
        let id ← start anchor default
        let pairs ← blockPairs fuel []
        finish id (.mapping (collectionTag tag Tag.map) pairs)
      | _ =>
        if anchor.isNone && tag.isNone then throw .malformed
        start anchor (.scalar (scalarTag tag true "") "")

/-- A node, or an empty one when the next token is one of `stops`. -/
def nodeOrEmpty (fuel : Nat) (block indentless : Bool) (stops : List Token) : Compose NodeId := do
  if ← nextIs stops then empty else node fuel block indentless

/-- The entries of a run of `-` entries at a key's indentation. -/
def indentlessItems : Nat → List NodeId → Compose (List NodeId)
  | 0, _ => throw .malformed
  | fuel + 1, items => do
    if (← peek) != .blockEntry then return items
    next
    let item ← nodeOrEmpty fuel true false [.blockEntry, .key, .value, .blockEnd]
    indentlessItems fuel (items ++ [item])

/-- The entries of a block sequence, up to its block end. -/
def blockItems : Nat → List NodeId → Compose (List NodeId)
  | 0, _ => throw .malformed
  | fuel + 1, items => do
    match ← peek with
    | .blockEntry =>
      next
      let item ← nodeOrEmpty fuel true false [.blockEntry, .blockEnd]
      blockItems fuel (items ++ [item])
    | .blockEnd => next; return items
    | _ => throw .malformed

/-- The pairs of a block mapping, up to its block end. -/
def blockPairs : Nat → List (NodeId × NodeId) → Compose (List (NodeId × NodeId))
  | 0, _ => throw .malformed
  | fuel + 1, pairs => do
    match ← peek with
    | .key =>
      next
      let k ← nodeOrEmpty fuel true true [.key, .value, .blockEnd]
      let v ← if (← peek) == .value then do
          next
          nodeOrEmpty fuel true true [.key, .value, .blockEnd]
        else empty
      blockPairs fuel (pairs ++ [(k, v)])
    | .blockEnd => next; return pairs
    | _ => throw .malformed

/-- The entries of a flow sequence, up to its closing bracket. -/
def flowItems : Nat → Bool → List NodeId → Compose (List NodeId)
  | 0, _, _ => throw .malformed
  | fuel + 1, first, items => do
    if (← peek) == .flowSequenceEnd then next; return items
    if !first then
      if (← peek) == .flowEntry then next else throw .malformed
    match ← peek with
    | .key =>
      next
      let id ← start none default
      let k ← nodeOrEmpty fuel false false [.value, .flowEntry, .flowSequenceEnd]
      let v ← if (← peek) == .value then do
          next
          nodeOrEmpty fuel false false [.flowEntry, .flowSequenceEnd]
        else empty
      let id ← finish id (.mapping Tag.map [(k, v)])
      flowItems fuel false (items ++ [id])
    | .flowSequenceEnd => flowItems fuel false items
    | _ =>
      let item ← node fuel false false
      flowItems fuel false (items ++ [item])

/-- The pairs of a flow mapping, up to its closing brace. -/
def flowPairs : Nat → Bool → List (NodeId × NodeId) → Compose (List (NodeId × NodeId))
  | 0, _, _ => throw .malformed
  | fuel + 1, first, pairs => do
    if (← peek) == .flowMappingEnd then next; return pairs
    if !first then
      if (← peek) == .flowEntry then next else throw .malformed
    match ← peek with
    | .key =>
      next
      let k ← nodeOrEmpty fuel false false [.value, .flowEntry, .flowMappingEnd]
      let v ← if (← peek) == .value then do
          next
          nodeOrEmpty fuel false false [.flowEntry, .flowMappingEnd]
        else empty
      flowPairs fuel false (pairs ++ [(k, v)])
    | .flowMappingEnd => flowPairs fuel false pairs
    | _ =>
      let k ← node fuel false false
      let v ← empty
      flowPairs fuel false (pairs ++ [(k, v)])

end

/-- The directives before an explicit document: at most one YAML directive, of version 1,
and tag handles declared once each. -/
def directives (fuel : Nat) : Compose Unit := do
  let rec go : Nat → Bool → List (String × String) → Compose (List (String × String))
    | 0, _, hs => pure hs
    | fuel + 1, seenVersion, hs => do
      match ← peek with
      | .directive _ (.version major _) =>
        if seenVersion || major != 1 then throw .malformed
        next
        go fuel true hs
      | .directive _ (.tagPrefix h p) =>
        if (hs.lookup h).isSome then throw .malformed
        next
        go fuel seenVersion (hs ++ [(h, p)])
      | .directive _ .other => next; go fuel seenVersion hs
      | _ => pure hs
  let hs ← go fuel false []
  modify fun s => { s with
    handles := hs ++ defaultHandles.filter fun (h, _) => (hs.lookup h).isNone }

/-- Past any document end markers. -/
def skipDocumentEnds (fuel : Nat) : Compose Unit := do
  let rec go : Nat → Compose Unit
    | 0 => pure ()
    | fuel + 1 => do if (← peek) == .documentEnd then next; go fuel
  go fuel

/-- The document of a stream, if it has one. -/
def stream (fuel : Nat) : Compose (Option NodeId) := do
  next
  let implicit := !(← nextIs [.streamEnd, .documentStart]) &&
    !(match ← peek with | .directive _ _ => true | _ => false)
  let root ← if implicit then do
      modify fun s => { s with handles := defaultHandles }
      let id ← node fuel true false
      pure (some id)
    else do
      skipDocumentEnds fuel
      if (← peek) == .streamEnd then pure none else do
        directives fuel
        if (← peek) != .documentStart then throw .malformed
        next
        let id ← match ← peek with
          | .directive _ _ | .documentStart | .documentEnd | .streamEnd => empty
          | _ => node fuel true false
        pure (some id)
  if root.isSome then
    if (← peek) == .documentEnd then next
    skipDocumentEnds fuel
    if (← peek) != .streamEnd then throw .malformed
  next
  return root

end Compose

/-- The document of a text given as characters, if it has one. -/
def readDocument (chars : Array Char) : Except LoadFault (Option Document) := do
  let fuel := 8 * (chars.size + 4)
  let init : Composing := { nodes := #[], anchors := [], handles := defaultHandles }
  let ((root, c), _) ← ((Compose.stream fuel).run init).run (Scanner.begin chars)
  return root.map fun r => { nodes := c.nodes, root := r }

end TournamentDraw.Yaml
