import TournamentDraw.Yaml.Node
import TournamentDraw.Yaml.Convert
import TournamentDraw.Yaml.Datum.Key

/-!
# From a document to a value

Each node becomes the value its tag asks for; a tag without a meaning is refused. A scalar
node of a collection tag, or a collection node of a scalar tag, is refused too, except that a
mapping stands for the scalar under its value key `=`.

A mapping first takes in its merge keys `<<`: the pairs of the merged mapping, or of each
mapping of a merged list (the last one first), come before its own pairs, and a key met again
replaces the value in place. A key must be a scalar value, never a collection. A value key
`=` among the keys is read as the text `=`.

When the values are built, a node reached again along another path is the same value, so a
document whose aliases repeat a node many times is built in one pass over its nodes, and a
collection met inside itself is marked there.

Faults are found in the order the values are built: a scalar at once when it is met, a
collection's content only after every collection met before it, level by level.
-/

namespace TournamentDraw.Yaml

namespace Document

/-- Whether the value of a tag is built as a collection, its content filled in later. -/
def collectionTag (t : String) : Bool :=
  [Tag.seq, Tag.map, Tag.set, Tag.omap, Tag.pairs].contains t

/-- The text of a node read as a scalar: its own text, or for a mapping that of the node
under its value key. -/
def scalarText (d : Document) : Nat → NodeId → Except LoadFault String
  | 0, _ => .error .malformed
  | fuel + 1, id =>
    match d.node id with
    | .scalar _ t => .ok t
    | .mapping _ ps =>
      match ps.find? fun p => (d.node p.1).tag == Tag.value with
      | some (_, v) => scalarText d fuel v
      | none => .error .malformed
    | .sequence _ _ => .error .malformed

/-- The value of a node whose tag is not a collection tag. -/
def scalarValue (d : Document) (fuel : Nat) (id : NodeId) (tag : String) :
    Except LoadFault Datum := do
  if !([Tag.null, Tag.bool, Tag.int, Tag.float, Tag.binary, Tag.timestamp, Tag.str].contains tag) then
    throw .malformed
  let text ← d.scalarText fuel id
  if tag == Tag.null then return .none
  else if tag == Tag.bool then return .bool (← truthOfText text)
  else if tag == Tag.int then return .int (← intOfText text)
  else if tag == Tag.float then return .float (← floatOfText text)
  else if tag == Tag.binary then return .bytes (← bytesOfText text)
  else if tag == Tag.timestamp then timestampOfText text
  else return .str text

/-- A key of a mapping: its node, and whether it is a value key read as a text. -/
abbrev KeyRef := NodeId × Bool

/-- The pairs of a mapping node with its merge keys taken in. -/
def flatPairs (d : Document) : Nat → NodeId → Except LoadFault (List (KeyRef × NodeId))
  | 0, _ => .error .malformed
  | fuel + 1, id =>
    match d.node id with
    | .mapping _ ps => do
      let step (acc : List (KeyRef × NodeId) × List (KeyRef × NodeId)) (p : NodeId × NodeId) :
          Except LoadFault (List (KeyRef × NodeId) × List (KeyRef × NodeId)) := do
        let (merged, own) := acc
        let (k, v) := p
        let ktag := (d.node k).tag
        if ktag == Tag.merge then
          match d.node v with
          | .mapping _ _ => return (merged ++ (← flatPairs d fuel v), own)
          | .sequence _ items =>
            let subs ← items.mapM fun s =>
              match d.node s with
              | .mapping _ _ => flatPairs d fuel s
              | _ => throw .malformed
            return (merged ++ subs.reverse.flatten, own)
          | .scalar _ _ => throw .malformed
        else return (merged, own ++ [((k, ktag == Tag.value), v)])
      let (merged, own) ← List.foldlM step ([], []) ps
      return merged ++ own
    | _ => return []

/-- The nodes met and the collections whose content is still to be built. -/
structure Visit where
  seen : Array Bool
  queue : List NodeId

/-- Meeting the nodes of a document in the order their values are built. -/
abbrev Visiting := StateT Visit (Except LoadFault)

/-- Meet a node: a scalar is built at once, a collection's content is put in the queue. A
node met before is not met again. -/
def meet (d : Document) (fuel : Nat) (id : NodeId) (asText : Bool) : Visiting Unit := do
  let v ← get
  if asText || v.seen[id]?.getD false then return
  set { v with seen := v.seen.setIfInBounds id true }
  let tag := (d.node id).tag
  if collectionTag tag then modify fun v => { v with queue := v.queue ++ [id] }
  else
    let _ ← liftM (d.scalarValue fuel id tag)

/-- Build the content of a collection: meet its items, or its keys and values in order, each
key checked to be no collection. -/
def fill (d : Document) (fuel : Nat) (id : NodeId) : Visiting Unit := do
  let n := d.node id
  if n.tag == Tag.seq then
    match n with
    | .sequence _ items => items.forM fun i => d.meet fuel i false
    | _ => throw .malformed
  else if n.tag == Tag.map || n.tag == Tag.set then
    match n with
    | .mapping _ _ =>
      let pairs ← liftM (d.flatPairs fuel id)
      pairs.forM fun ((k, asText), v) => do
        d.meet fuel k asText
        if !asText && collectionTag (d.node k).tag then throw .malformed
        d.meet fuel v false
    | _ => throw .malformed
  else
    match n with
    | .sequence _ items =>
      items.forM fun s =>
        match d.node s with
        | .mapping _ [(k, v)] => do d.meet fuel k false; d.meet fuel v false
        | _ => throw .malformed
    | _ => throw .malformed

/-- The first fault met while building the values of a document, if there is one. -/
def check (d : Document) : Except LoadFault Unit := do
  let fuel := d.nodes.size + 1
  let rec drain : Nat → Visiting Unit
    | 0 => pure ()
    | k + 1 => do
      match (← get).queue with
      | [] => pure ()
      | id :: rest =>
        modify fun v => { v with queue := rest }
        d.fill fuel id
        drain k
  let start : Visit := { seen := Array.replicate d.nodes.size false, queue := [] }
  let _ ← ((do d.meet fuel d.root false; drain fuel) : Visiting Unit).run start

/-- The values built so far, by node. -/
abbrev Building := StateT (Array (Option Datum)) (Except LoadFault)

/-- The value of a node, inside the collections `open` that are still being built; a node
built before is the same value. -/
def build (d : Document) : Nat → List NodeId → NodeId → Bool → Building Datum
  | 0, _, _, _ => throw .malformed
  | fuel + 1, opened, id, asText => do
    if asText then return .str (← liftM (d.scalarText fuel id))
    if let some (some x) := (← get)[id]? then return x
    let n := d.node id
    if opened.contains id then return .again (n.tag == Tag.map)
    let inner := id :: opened
    let x ← if n.tag == Tag.seq then
        match n with
        | .sequence _ items => pure (.list (← items.mapM fun i => build d fuel inner i false))
        | _ => throw .malformed
      else if n.tag == Tag.map || n.tag == Tag.set then do
        let pairs ← liftM (d.flatPairs fuel id)
        let entries ← List.foldlM (fun es ((k, asT), v) => do
            let kd ← build d fuel inner k asT
            let vd ← build d fuel inner v false
            return Datum.insertEntry es kd vd) [] pairs
        pure (if n.tag == Tag.map then .dict entries else .set (Datum.mappingOrder (entries.map (·.1))))
      else if n.tag == Tag.omap || n.tag == Tag.pairs then
        match n with
        | .sequence _ items =>
          let ps ← items.mapM fun s =>
            match d.node s with
            | .mapping _ [(k, v)] => do
              return (← build d fuel inner k false, ← build d fuel inner v false)
            | _ => throw .malformed
          pure (.pairs ps)
        | _ => throw .malformed
      else liftM (d.scalarValue fuel id n.tag)
    modify fun m => m.setIfInBounds id (some x)
    return x

/-- The value of a document, or the first fault met while building it. -/
def value (d : Document) : Except LoadFault Datum := do
  d.check
  let fuel := d.nodes.size + 2
  let (x, _) ← (d.build fuel [] d.root false).run (Array.replicate d.nodes.size none)
  return x

end Document

end TournamentDraw.Yaml
