import WorkflowGraph.Config.Basic
import WorkflowGraph.Graph
import WorkflowGraph.NameRegistry
import WorkflowGraph.Rows
/-
Repair of a document's structure, in four steps: connections in normal form without edges into triggers, open branches of
a switch joined in a merge node, nodes without an incoming edge connected from their left neighbour, and outputs that
lead nowhere connected to their right neighbour. Empty ports of a switch are never filled. Every step counts what it
changes and records what it decides.

A document whose nodes have lists or objects for names is handed back as it came.
-/
namespace WorkflowGraph

namespace Repair

/-- the state of a repair: the nodes and connections so far, the number of fixes, and what was decided -/
structure State where
  nodes : List Node
  connections : Connections
  fixes : Nat
  trace : Trace

def decided (rule : String) (detail : List (String × Value)) : Trace := [Event.of "repair" rule detail]

namespace State

/-- a decision recorded -/
def note (s : State) (rule : String) (detail : List (String × Value)) : State :=
  { s with trace := s.trace ++ decided rule detail }

/-- fixes counted and a decision recorded -/
def fixed (s : State) (count : Nat) (rule : String) (detail : List (String × Value)) : State :=
  { s.note rule detail with fixes := s.fixes + count }

end State

/-! ## Connections in normal form -/

/-- the edges to a trigger dropped -/
def dropIncoming (s : State) (n : Node) : State :=
  match n.isTrigger, n.name with
  | true, .text name =>
    let count := s.connections.countEdgesTo name
    if count = 0 then s
    else
      { s with connections := s.connections.removeEdgesTo name }.fixed count "trigger-incoming-dropped"
        [("node", .text name), ("edges", .int count)]
  | _, _ => s

/-- the connections of a document in normal form, without edges into triggers -/
def canonicalize (document : Fields) (nodes : List Node) : Except Fault State := do
  let raw := Value.field "connections" document
  let normal ← Connections.normalize raw
  let c ← Connections.load raw
  let start : State := ⟨nodes, c, 0, []⟩
  let start := if normal.toValue == raw then start else start.fixed 1 "connections-normalized" []
  return nodes.foldl dropIncoming { start with trace := start.trace ++ Connections.normalizeEvents raw }

/-! ## Switches -/

/-- an identifier that no node has, counted on from the number of nodes -/
def nextId (nodes : List Node) : String :=
  let used := nodes.map fun n => (n.get "id").toText
  toString (leastFree toString used (nodes.length + 1) used.length)

/-- the ends of the branches that leave a switch, each once -/
def branchEnds (c : Connections) (byName : Table String Node) (source : Key) : List String :=
  ((c.ports source mainType).filterMap fun p => p.head?.bind fun e => Branch.last c byName e.node).eraseDups

/-- the rightmost place of some nodes -/
def rightmost : Double → List Node → Except Fault Double
  | x, [] => .ok x
  | x, n :: rest => do rightmost (x.max (← n.place).x) rest

/-- the node that joins the open branches of a switch -/
def mergeNode (id name : String) (x y : Double) : Node :=
  ⟨[(.text "id", .text id), (.text "name", .text name), (.text "type", .text (Catalog.fullTag "merge")),
    (.text "typeVersion", .int 2), (.text "position", .list [.float x, .float y]),
    (.text "parameters", .object [(.text "mode", .text "chooseBranch"), (.text "options", .object [])])]⟩

/-- edges from the ends of branches to the inputs of a merge node, the first end having number `i` -/
def joinEnds (c : Connections) (merge : String) (i : Nat) : List String → Connections
  | [] => c
  | e :: rest => joinEnds (c.connect (.text e) merge (Catalog.mergeInput i).toNat) merge (i + 1) rest

/-- the branches of one switch joined, if at least two of them are open; the names in use go along -/
def reconverge (cfg : BuildConfig) (acc : State × NameRegistry) (sw : Node) : Except Fault (State × NameRegistry) := do
  let (s, registry) := acc
  let byName := Document.byName s.nodes
  let source ← sw.name.toKey
  let ends := branchEnds s.connections byName source
  let isOpen := ends.filterMap fun e =>
    match Table.get? e byName with
    | some n => if n.isConcluding then none else some (e, n)
    | none => none
  match isOpen with
  | (first, firstNode) :: second :: others =>
    let (merge, registry) := registry.claim ("Merge " ++ source.toText ++ " Results")
    let x ← rightmost (← firstNode.place).x ((second :: others).map (·.2))
    let spacing ← (Numeric.whole cfg.spacingX).toDouble
    let place ← sw.place
    let node := mergeNode (nextId s.nodes) merge (x.add spacing) place.y
    let names := first :: (second :: others).map (·.1)
    let joined : State := { s with nodes := s.nodes ++ [node], connections := joinEnds s.connections merge 0 names }
    return (joined.fixed (1 + names.length) "switch-merged"
      [("node", .ofKey source), ("merge", .text merge), ("ends", .list (names.map Value.text))], registry)
  | _ => return (s.note "switch-left-alone" [("node", .ofKey source), ("ends", .list (ends.map Value.text))], registry)

/-- the open branches of all switches joined -/
def reconvergeAll (cfg : BuildConfig) (s : State) : Except Fault State := do
  let keys ← s.nodes.mapM fun n => n.name.toKey
  let registry : NameRegistry := ⟨keys.filterMap fun k => (Value.ofKey k).text?⟩
  let (s, _) ← (s.nodes.filter Node.isSwitch).foldlM (reconverge cfg) (s, registry)
  return s

/-! ## Rows -/

/-- whether an edge leads to a node -/
def isTarget (c : Connections) (n : Node) : Bool :=
  match n.name with
  | .text name => c.isTarget name
  | _ => false

/-- a node without an incoming edge connected from its left neighbour -/
def connectNode (cfg : BuildConfig) (s : State) (n : Node) : Except Fault State := do
  if n.isTrigger || isTarget s.connections n then return s
  match ← Rows.predecessor id (.whole cfg.rowTolerance) n s.nodes with
  | none => return s.note "disconnected-unresolved" [("node", n.name)]
  | some left =>
    let source ← left.name.toKey
    return { s with connections := s.connections.connect source n.name.toText 0 }.fixed 1 "disconnected-connected"
      [("node", n.name), ("source", left.name)]

/-- nodes with their places -/
def withPlaces (nodes : List Node) : Except Fault (List (Double × Node)) :=
  nodes.mapM fun n => n.place.map (·.x, n)

/-- nodes without an incoming edge connected, from left to right -/
def connectAll (cfg : BuildConfig) (s : State) : Except Fault State := do
  let placed ← withPlaces s.nodes
  (placed.mergeSort fun a b => !b.1.lt a.1).foldlM (fun s p => connectNode cfg s p.2) s

/-- a node whose output leads nowhere connected to its right neighbour -/
def chainNode (cfg : BuildConfig) (candidates : List Node) (s : State) (n : Node) : Except Fault State := do
  let source ← n.name.toKey
  if n.isConcluding || s.connections.hasOutgoing source then return s
  match ← Rows.successor id (.whole cfg.rowTolerance) (.whole cfg.rowMinDx) n candidates with
  | none => return s
  | some right =>
    return { s with connections := s.connections.connect source right.name.toText 0 }.fixed 1 "output-chained"
      [("node", n.name), ("target", right.name)]

/-- outputs that lead nowhere connected -/
def chainAll (cfg : BuildConfig) (s : State) : Except Fault State :=
  s.nodes.foldlM (chainNode cfg (s.nodes.filter fun n => !n.isTrigger)) s

/-! ## The whole repair -/

/-- the steps after the first one -/
def mend (cfg : BuildConfig) (s : State) : Except Fault State := do
  chainAll cfg (← connectAll cfg (← reconvergeAll cfg s))

end Repair

/-- what a repair hands back: the document, the number of fixes, and what was decided -/
structure Repaired where
  document : Value
  fixes : Nat
  trace : Trace

/-- a document with its structure repaired -/
def repair (cfg : BuildConfig) (document : Value) : Except Fault Repaired :=
  let skipped : Repaired := ⟨document, 0, Repair.decided "skipped-not-a-workflow" []⟩
  match document with
  | .object fields =>
    match Value.field "nodes" fields with
    | .list items => do
      let start ← Repair.canonicalize fields (items.filterMap Node.ofValue?)
      match Repair.mend cfg start with
      | .ok s =>
        let fields := Table.put (.text "nodes") (.list (s.nodes.map Node.toValue)) fields
        return ⟨.object (Table.put (.text "connections") s.connections.toValue fields), s.fixes, s.trace⟩
      | .error (.notScalar kind) =>
        let cause := Fault.notScalar kind
        return ⟨document, 0, start.trace ++ Repair.decided "aborted" [("error", .text cause.message)]⟩
      | .error fault => .error fault
    | _ => .ok skipped
  | _ => .ok skipped

end WorkflowGraph
