import WorkflowGraph.Config.Basic
import WorkflowGraph.Connections.Basic
import WorkflowGraph.Identifiers
import WorkflowGraph.NameRegistry
import WorkflowGraph.Parameters.Defaults
import WorkflowGraph.Parameters.Template
import WorkflowGraph.Plan.Basic
/-
The canvas on which a workflow is laid out: the nodes placed so far, each with what it was placed for, their
connections, and the names and identifiers in use. Nodes are only ever added, and each gets a name of its own.
-/
namespace WorkflowGraph

/-- what a node was placed for -/
inductive Origin where
  /-- the start of a branch -/
  | trigger
  /-- a requirement of a branch -/
  | step (r : Requirement)
  /-- the joining of rows or routes, where no requirement asks for it -/
  | join
  /-- the answer to the caller of a webhook -/
  | response
  /-- the handling of errors -/
  | errorHandling

/-- a node on the canvas -/
structure PlacedNode where
  id : Nat
  name : String
  type : String
  typeVersion : Nat
  x : Int
  y : Int
  parameters : Fields
  webhookId : Option String
  /-- the position in the plan of the branch that the node was placed for -/
  branch : Option Nat
  origin : Origin

namespace PlacedNode

/-- the node as part of a document -/
def toNode (n : PlacedNode) : Node :=
  ⟨[(.text "id", .text (toString n.id)), (.text "name", .text n.name), (.text "type", .text n.type),
    (.text "typeVersion", .int n.typeVersion), (.text "position", .list [.int n.x, .int n.y]),
    (.text "parameters", .object n.parameters)] ++
    (n.webhookId.map fun id => ((.text "webhookId", .text id) : Key × Value)).toList⟩

end PlacedNode

structure Canvas where
  nodes : List PlacedNode
  connections : Connections
  names : NameRegistry
  sources : Identifiers
  /-- the branch that nodes are placed for -/
  branch : Option Nat
  /-- the lowest row of the branch so far -/
  lowestY : Int
  trace : Trace

/-- a node that is asked for: its type, the name it should have, its place, and parameters it does not take from the
defaults of its type -/
structure NodeRequest where
  type : String
  wanted : String
  x : Int
  y : Int
  parameters : Fields
  typeVersion : Nat
  origin : Origin

namespace Canvas

def empty (sources : Identifiers) : Canvas := ⟨[], .empty, ⟨[]⟩, sources, none, 0, []⟩

def note (c : Canvas) (rule : String) (detail : List (String × Value)) : Canvas :=
  { c with trace := c.trace ++ [Event.of "synthesis" rule detail] }

/-- the parameters of a node: defaults where nothing is given, and starting code for nodes of code -/
def parametersFor (short name : String) (given : Fields) : Fields :=
  let filled := Parameters.fill short given
  let code := Value.text (Parameters.codeTemplate name name)
  match short with
  | "function" => Table.put (.text "functionCode") code filled
  | "code" => Table.put (.text "jsCode") code filled
  | _ => filled

/-- a node added to the canvas, with the name that it got -/
def add (c : Canvas) (r : NodeRequest) : String × Canvas :=
  let (name, names) := c.names.claim r.wanted
  let short := Catalog.shortType r.type
  let (webhookId, sources) :=
    if short = "webhook" then
      let (id, sources) := c.sources.webhookId
      (some id, sources)
    else (none, c.sources)
  let node : PlacedNode :=
    ⟨c.nodes.length + 1, name, r.type, r.typeVersion, r.x, r.y, parametersFor short name r.parameters, webhookId,
      c.branch, r.origin⟩
  (name, { c with
    nodes := c.nodes ++ [node], names := names, sources := sources, lowestY := max c.lowestY r.y })

/-- an edge from a main port of a node to an input of another one -/
def connect (c : Canvas) (source : String) (port : Nat) (target : String) (index : Nat) : Canvas :=
  { c with connections := c.connections.addEdge (.text source) mainType port (.plain target mainType index) }

/-- at least some number of main ports for a node -/
def openPorts (c : Canvas) (source : String) (count : Nat) : Canvas :=
  { c with connections := c.connections.ensurePorts (.text source) mainType count }

/-- a requirement as a node; a step that would be a trigger becomes a step of the general type -/
def place (cfg : BuildConfig) (c : Canvas) (r : Requirement) (x y : Int) : String × Canvas :=
  if Catalog.isTriggerType r.type then
    (c.note "trigger-step-demoted" [("node", r.name), ("type", r.type)]).add
      ⟨cfg.defaultNodeType, r.name, x, y, [], 1, .step r⟩
  else c.add ⟨r.type, r.name, x, y, [], 1, .step r⟩

/-- a merge node, placed for a requirement or, without one, under a general name -/
def addMerge (c : Canvas) (req : Option Requirement) (wanted : String) (x y : Int) (mode : String)
    (typeVersion : Nat) : String × Canvas :=
  let params : Fields := [(.text "mode", .text mode)]
  match req with
  | some r => c.add ⟨Catalog.fullTag "merge", r.name, x, y, params, typeVersion, .step r⟩
  | none => c.add ⟨Catalog.fullTag "merge", wanted, x, y, params, typeVersion, .join⟩

/-- edges from the ends of rows or routes to the inputs of a merge node, the first end having number `k` -/
def connectEnds (c : Canvas) (merge : String) (k : Nat) : List String → Canvas
  | [] => c
  | e :: rest => connectEnds (c.connect e 0 merge (Catalog.mergeInput k).toNat) merge (k + 1) rest

end Canvas

end WorkflowGraph
