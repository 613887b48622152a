import WorkflowGraph.Connections.Normal
import WorkflowGraph.Node
/-
The graph of a document: its named nodes and the edges between them. Edges whose source or target is no node are left
out, and two edges between the same nodes count once. A walk along a branch follows first edges until it cannot go on.
-/
namespace WorkflowGraph

/-! ## Documents -/

namespace Document

/-- the nodes that a value lists; entries that are no objects are none -/
def nodesOf (v : Value) : List Node := ((v.list?).getD []).filterMap Node.ofValue?

/-- the nodes of a document, whose list may also be an object or a text without any node in it -/
def nodes (document : Fields) : Except Fault (List Node) :=
  match Value.field "nodes" document with
  | .list items => .ok (items.filterMap Node.ofValue?)
  | .object _ => .ok []
  | .text _ => .ok []
  | v => if v.isFilled then .error .wrongKind else .ok []

/-- one more node by its name, unless that is no text or another node has it -/
def enter (t : Table String Node) (n : Node) : Table String Node :=
  match n.name with
  | .text s => if Table.has s t then t else t ++ [(s, n)]
  | _ => t

/-- nodes by their names, as far as these are texts; of several nodes of one name the first -/
def byName (nodes : List Node) : Table String Node := nodes.foldl enter []

end Document

/-! ## Graphs -/

/-- an edge between two nodes, by the last port and input that join them -/
structure Arc where
  source : String
  target : String
  port : Nat
  index : Nat

/-- the named nodes of a document and the edges between them -/
structure Graph where
  nodes : List String
  arcs : List Arc

namespace Graph

def hasNode (g : Graph) (name : String) : Bool := g.nodes.contains name

/-- a node's name added, unless it is there -/
def addNode (names : List String) (name : String) : List String :=
  if names.contains name then names else names ++ [name]

/-- an edge added; between two nodes already joined it replaces the port and the input -/
def addArc (a : Arc) : List Arc → List Arc
  | [] => [a]
  | b :: rest => if b.source = a.source ∧ b.target = a.target then a :: rest else b :: addArc a rest

/-- how many nodes have an edge to a node -/
def inDegree (g : Graph) (name : String) : Nat := g.arcs.countP (·.target = name)

/-- the edges grouped by source in the order of the nodes -/
def grouped (g : Graph) : List Arc := g.nodes.flatMap fun n => g.arcs.filter (·.source = n)

/-- fields that a node of a graph may not have, and keys that are no texts, cannot be carried over -/
def carries (n : Node) : Bool :=
  n.fields.all fun (k, _) =>
    match k with
    | .text s => s != "self" && s != "node_for_adding"
    | _ => false

/-- the names with that of one more node, as far as it is a text -/
def addName (names : List String) (n : Node) : Except Fault (List String) :=
  match n.name with
  | .text s => if carries n then .ok (addNode names s) else .error .wrongKind
  | _ => .ok names

/-- the names of nodes in the order of their first appearance -/
def nodeNames (nodes : List Node) : Except Fault (List String) := nodes.foldlM addName []

/-- the arc of a link whose ends are both among some names -/
def arcOf? (names : List String) (l : Link) : Option Arc :=
  match l.source with
  | .text s => if names.contains s && names.contains l.edge.node then some ⟨s, l.edge.node, l.port, l.edge.index⟩ else none
  | _ => none

/-- the graph of some nodes and connections -/
def build (nodes : List Node) (c : Connections) : Except Fault Graph := do
  let names ← nodeNames nodes
  return ⟨names, (c.links.filterMap (arcOf? names)).foldl (fun arcs a => addArc a arcs) []⟩

/-- the graph of a document -/
def ofDocument (document : Fields) : Except Fault Graph := do
  let nodes ← Document.nodes document
  let names ← nodeNames nodes
  let c ← Connections.load (Value.field "connections" document)
  return ⟨names, (c.links.filterMap (arcOf? names)).foldl (fun arcs a => addArc a arcs) []⟩

end Graph

/-! ## Branches -/

namespace Branch

/-- the end of the walk along first edges from `current`, with the names `seen` before it; every step visits a new
known name, so `fuel` is the number of known names -/
def walk (c : Connections) (byName : Table String Node) (seen : List String) (current : String) : Nat → String
  | 0 => current
  | fuel + 1 =>
    if (Table.get? current byName).any Node.isLoop then current
    else
      match c.firstTarget (.text current) with
      | none => current
      | some next =>
        if Table.has next byName && !(current :: seen).contains next then walk c byName (current :: seen) next fuel
        else current

/-- the last node of the branch that starts with a node, none when that node is unknown; the walk stops at nodes whose
edges lead back, and before a node visited already -/
def last (c : Connections) (byName : Table String Node) (start : String) : Option String :=
  if Table.has start byName then some (walk c byName [] start byName.length) else none

end Branch

end WorkflowGraph
