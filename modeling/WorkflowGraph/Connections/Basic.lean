import WorkflowGraph.Fault
/-
Connections: for every source the ports of each port type, and on every port the edges that leave by it. Sources and
port types keep the order of their first appearance. Edges are made by `addEdge` only, which opens the port it needs
and leaves a port alone that holds the same edge already.
-/
namespace WorkflowGraph

/-- an edge seen from its source: the target's name, the type of the connection and the target's input -/
structure Edge where
  node : String
  type : String
  index : Nat
  deriving DecidableEq

/-- the edges that leave by one port -/
abbrev Port := List Edge

/-- the ports of one source by port type -/
abbrev PortTable := Table String (List Port)

/-- the connections of a document -/
structure Connections where
  table : Table Key PortTable

/-- an edge with everything that places it -/
structure Link where
  source : Key
  portType : String
  port : Nat
  edge : Edge
  deriving DecidableEq

/-- the port type of ordinary data connections -/
def mainType : String := "main"

namespace Edge

/-- an edge of the type of its port -/
def plain (target portType : String) (index : Nat) : Edge := ⟨target, portType, index⟩

/-- an edge of a given type, the type of its port standing in for none; a negative input counts as the first -/
def make (target portType : String) (type : Option String) (index : Int) : Edge :=
  let given := type.getD ""
  ⟨target, if given.isEmpty then portType else given, index.toNat⟩

def toValue (e : Edge) : Value :=
  .object [(.text "node", .text e.node), (.text "type", .text e.type), (.text "index", .int e.index)]

end Edge

namespace Connections

def empty : Connections := ⟨[]⟩

/-! ## Views -/

/-- the ports of all types of a source -/
def portTable (c : Connections) (source : Key) : PortTable := (c.table.get? source).getD []

/-- the ports of one type of a source -/
def ports (c : Connections) (source : Key) (portType : String) : List Port :=
  ((c.portTable source).get? portType).getD []

def sources (c : Connections) : List Key := c.table.keys

/-- the edges on a list of ports, each with the port's number, counted from `first` -/
def numbered (first : Nat) : List Port → List (Nat × Edge)
  | [] => []
  | p :: ps => p.map (first, ·) ++ numbered (first + 1) ps

/-- all edges in order: by source, port type, port and place on the port -/
def links (c : Connections) : List Link :=
  c.table.flatMap fun (source, byType) =>
    byType.flatMap fun (portType, ports) => (numbered 0 ports).map fun (i, e) => ⟨source, portType, i, e⟩

/-- the names that edges lead to -/
def targets (c : Connections) : List String := c.links.map (·.edge.node)

def isTarget (c : Connections) (name : String) : Bool := c.targets.contains name

def size (c : Connections) : Nat := c.links.length

/-- whether an edge leaves a source, by whatever port -/
def hasOutgoing (c : Connections) (source : Key) : Bool :=
  (c.portTable source).any fun (_, ports) => ports.any fun p => !p.isEmpty

/-- the target of the first edge on the first main port, the edge that a walk along a branch follows -/
def firstTarget (c : Connections) (source : Key) : Option String :=
  match c.ports source mainType with
  | (e :: _) :: _ => some e.node
  | _ => none

/-! ## Values -/

def portValue (p : Port) : Value := .list (p.map Edge.toValue)

def portTableValue (t : PortTable) : Value :=
  .object (t.map fun (portType, ports) => (.text portType, .list (ports.map portValue)))

/-- the connections as a value of a document -/
def toValue (c : Connections) : Value := .object (c.table.map fun (source, t) => (source, portTableValue t))

/-! ## Building -/

/-- at least `count` ports, empty ones added at the end -/
def pad (count : Nat) (ports : List Port) : List Port := ports ++ List.replicate (count - ports.length) []

/-- the connections with the ports of one type of a source changed; source and type are opened when new -/
def modifyPorts (c : Connections) (source : Key) (portType : String) (f : List Port → List Port) : Connections :=
  ⟨c.table.modify source fun t => (t.getD []).modify portType fun ports => f (ports.getD [])⟩

/-- the connections with at least `count` ports of one type of a source -/
def ensurePorts (c : Connections) (source : Key) (portType : String) (count : Nat) : Connections :=
  c.modifyPorts source portType (pad count)

/-- a port with one more edge, unless it holds that edge already -/
def insertEdge (e : Edge) (p : Port) : Port := if e ∈ p then p else p ++ [e]

/-- the connections with an edge on a port of a source; ports up to that one are opened when missing -/
def addEdge (c : Connections) (source : Key) (portType : String) (port : Nat) (e : Edge) : Connections :=
  c.modifyPorts source portType fun ports => (pad (port + 1) ports).modify port (insertEdge e)

/-- whether a port of a source holds an edge -/
def hasEdge (c : Connections) (source : Key) (portType : String) (port : Nat) (e : Edge) : Bool :=
  ((c.ports source portType)[port]?.getD []).contains e

/-- adds an edge and tells whether it is new; a negative port counts from the end of the ports there are -/
def addAt (c : Connections) (source : Key) (portType : String) (port : Int) (e : Edge) :
    Connections × Except Fault Bool :=
  let opened := c.ensurePorts source portType (port + 1).toNat
  let count : Int := (opened.ports source portType).length
  let at' := if port < 0 then count + port else port
  if at' < 0 then (opened, .error .noSuchPosition)
  else (opened.addEdge source portType at'.toNat e, .ok !(opened.hasEdge source portType at'.toNat e))

/-- an edge on the first main port of a source, to an input of a target -/
def connect (c : Connections) (source : Key) (target : String) (index : Nat) : Connections :=
  c.addEdge source mainType 0 (.plain target mainType index)

/-! ## Changing -/

/-- the connections with every port changed -/
def mapPorts (c : Connections) (f : Port → Port) : Connections :=
  ⟨c.table.map fun (source, t) => (source, t.map fun (portType, ports) => (portType, ports.map f))⟩

/-- the connections without the edges to a target -/
def removeEdgesTo (c : Connections) (target : String) : Connections := c.mapPorts (·.filter (·.node != target))

/-- how many edges lead to a target -/
def countEdgesTo (c : Connections) (target : String) : Nat := c.targets.count target

/-- the edges of some ports added to the ports of the same numbers, those already there left out -/
def mergePorts : List Port → List Port → List Port
  | [], moved => moved.map fun p => p.foldl (fun q e => insertEdge e q) []
  | kept, [] => kept
  | k :: kept, m :: moved => m.foldl (fun q e => insertEdge e q) k :: mergePorts kept moved

/-- the edge with a target that has a new name -/
def Edge.retarget (old new : String) (e : Edge) : Edge := if e.node = old then ⟨new, e.type, e.index⟩ else e

/-- the connections with a name changed, as a source and as a target; the ports of a source that gets a name already in
use are added to those there -/
def rename (c : Connections) (old new : String) : Connections :=
  if old = new then c
  else
    let moved := c.portTable (.text old)
    let rest : Connections := ⟨c.table.remove (.text old)⟩
    let merged := moved.foldl (fun c (portType, ports) => c.modifyPorts (.text new) portType (mergePorts · ports)) rest
    merged.mapPorts (·.map (Edge.retarget old new))

/-! ## What changes, and what stays -/

/-- padding adds ports only up to the count -/
theorem length_pad (count : Nat) (ports : List Port) : (pad count ports).length = max count ports.length := by
  simp [pad]; omega

/-- padding changes no port that is there -/
theorem getElem?_pad (count : Nat) (ports : List Port) (i : Nat) (h : i < ports.length) :
    (pad count ports)[i]? = ports[i]? := by
  simp [pad, List.getElem?_append_left h]

/-- a port keeps its edges and holds the one that was added -/
theorem mem_insertEdge (e e' : Edge) (p : Port) : e' ∈ insertEdge e p ↔ e' = e ∨ e' ∈ p := by
  unfold insertEdge
  split
  · constructor
    · exact Or.inr
    · rintro (rfl | h) <;> assumption
  · simp [or_comm]

/-- the ports of a source and type after a change, and all others as they were -/
theorem ports_modifyPorts (c : Connections) (source source' : Key) (portType portType' : String)
    (f : List Port → List Port) :
    (c.modifyPorts source portType f).ports source' portType' =
      if (source == source') = true ∧ portType = portType' then f (c.ports source portType)
      else c.ports source' portType' := by
  unfold ports portTable modifyPorts
  rw [Table.get?_modify]
  by_cases h : (source == source') = true
  · rw [if_pos h, ← Table.get?_congr h c.table]
    simp only [Option.getD_some, Table.get?_modify, beq_iff_eq, h, true_and]
    split <;> rfl
  · simp [h]

end Connections

end WorkflowGraph
