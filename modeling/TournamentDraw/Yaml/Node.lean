/-!
# The node graph of a YAML document

A document is a graph of nodes: scalars with their text, sequences of nodes and mappings of
node pairs, each with its tag. Nodes are numbered in the order they are met. An alias is no
node of its own but another edge to the node of its anchor, so a node may be reached along
several paths, and even from inside itself when the alias stands within its anchor's node.
-/

namespace TournamentDraw.Yaml

/-- The number of a node in its document. -/
abbrev NodeId := Nat

/-- A node: its tag and its content, the children given by number. -/
inductive Node where
  | scalar (tag : String) (text : String)
  | sequence (tag : String) (items : List NodeId)
  | mapping (tag : String) (pairs : List (NodeId × NodeId))
  deriving Repr, Inhabited, DecidableEq

/-- The tag of a node. -/
def Node.tag : Node → String
  | .scalar t _ | .sequence t _ | .mapping t _ => t

/-- A document: its nodes by number, and its root. -/
structure Document where
  nodes : Array Node
  root : NodeId
  deriving Repr

/-- The node of a number; a number past the last node reads as an empty null. -/
def Document.node (d : Document) (id : NodeId) : Node :=
  d.nodes[id]?.getD (.scalar "" "")

end TournamentDraw.Yaml
