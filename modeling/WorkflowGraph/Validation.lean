import WorkflowGraph.Config.Basic
import WorkflowGraph.Graph
import WorkflowGraph.Parameters.Defaults
import WorkflowGraph.Rows
import WorkflowGraph.Schema.Workflow
/-
Validation: everything that is wrong with a document, as a list of issues. The checks follow one another and none stops
the next, except that a document without nodes has nothing more to check: the shape, a trigger, unique names, edges
between known nodes, no edge into a trigger, an edge into everything else, the ports of switches, outputs that lead
nowhere although a node follows on the row, and parameters that are missing.

The checks only read. What they cannot read, such as a list for a name, is a fault.
-/
namespace WorkflowGraph

inductive Severity where
  | error
  | warning
  deriving DecidableEq

def Severity.word : Severity → String
  | .error => "error"
  | .warning => "warning"

/-- the check that found an issue -/
inductive IssueCategory where
  | schema
  | empty
  | trigger
  | names
  | dangling
  | triggerIncoming
  | disconnected
  | switch
  | noOutgoing
  | parameters
  deriving DecidableEq

def IssueCategory.word : IssueCategory → String
  | .schema => "SCHEMA"
  | .empty => "EMPTY"
  | .trigger => "TRIGGER"
  | .names => "NAMES"
  | .dangling => "DANGLING"
  | .triggerIncoming => "TRIGGER_INCOMING"
  | .disconnected => "DISCONNECTED"
  | .switch => "SWITCH"
  | .noOutgoing => "NO_OUTGOING"
  | .parameters => "PARAMETERS"

/-- one thing that is wrong with a document; `node` names the node concerned, null when there is none -/
structure Issue where
  severity : Severity
  category : IssueCategory
  message : String
  autofixable : Bool
  node : Value

namespace Issue

/-- an error that no repair removes -/
def error (category : IssueCategory) (message : String) (node : Value) : Issue :=
  ⟨.error, category, message, false, node⟩

/-- the line that shows the issue -/
def line (i : Issue) : String := "[" ++ i.category.word ++ "] " ++ i.message

def toValue (i : Issue) : Value :=
  Parameters.object [
    ("severity", i.severity.word), ("category", i.category.word), ("message", i.message),
    ("autofixable", .bool i.autofixable), ("node", i.node)]

end Issue

/-- the score of a document with so many errors and warnings: from a hundred points an error costs twenty, a warning
five -/
def scoreOf (errors warnings : Int) : Int := max 0 (100 - 20 * errors - 5 * warnings)

/-- the issues of a document -/
structure Report where
  issues : List Issue

namespace Report

def errors (r : Report) : List Issue := r.issues.filter (·.severity = .error)

def warnings (r : Report) : List Issue := r.issues.filter (·.severity = .warning)

def isValid (r : Report) : Bool := r.errors.isEmpty

def score (r : Report) : Int := scoreOf r.errors.length r.warnings.length

/-- the report as fields of an object -/
def toFields (r : Report) : List (String × Value) :=
  [("isValid", .bool r.isValid), ("score", .int r.score), ("issues", .list (r.issues.map Issue.toValue))]

end Report

namespace Validation

/-! ## The document as a whole -/

/-- a node with the key that its name is -/
structure Named where
  key : Key
  node : Node

/-- the nodes with their names as keys; a list or an object is no name -/
def named (nodes : List Node) : Except Fault (List Named) :=
  nodes.mapM fun n => n.name.toKey.map (⟨·, n⟩)

/-- the shape of the document -/
def schemaIssues (document : Fields) : List Issue :=
  match worst (Schema.workflow.violations [] (.object document)) with
  | some v => [.error .schema v.text .null]
  | none => []

/-- the names of the triggers -/
def triggerKeys (nodes : List Named) : List Key := (nodes.filter (·.node.isTrigger)).map (·.key)

/-- a document without a trigger has no entry -/
def triggerIssues (nodes : List Named) : List Issue :=
  if (triggerKeys nodes).isEmpty then
    [.error .trigger "Missing trigger node (workflow has no entry point)" .null]
  else []

/-- how often each name occurs, in the order of the first -/
def nameCounts (nodes : List Named) : Table Key Nat :=
  nodes.foldl (fun t n => Table.modify n.key (fun c => c.getD 0 + 1) t) []

/-- names that several nodes have -/
def nameIssues (nodes : List Named) : List Issue :=
  (nameCounts nodes).filterMap fun (key, count) =>
    if 1 < count then
      some (.error .names ("Duplicate node name '" ++ key.toText ++ "' (" ++ toString count ++ " nodes)") (.ofKey key))
    else none

/-! ## Edges -/

/-- the ends of edges, each with the edge it belongs to -/
def references (c : Connections) : List (Key × Link) :=
  c.links.flatMap fun l => [(l.source, l), (.text l.edge.node, l)]

/-- ends of edges that are no nodes, each reported once -/
def danglingIssues (known : List Key) : List Key → List (Key × Link) → List Issue
  | _, [] => []
  | reported, (ref, l) :: rest =>
    if known.contains ref || reported.contains ref then danglingIssues known reported rest
    else
      .error .dangling
        ("Connection " ++ l.source.toText ++ " -> " ++ l.edge.node ++ " references unknown node '" ++ ref.toText ++ "'")
        (.ofKey ref) :: danglingIssues known (ref :: reported) rest

/-- whether an edge of the graph leads to a name -/
def isReached (g : Graph) (key : Key) : Bool :=
  match key with
  | .text s => g.hasNode s && 0 < g.inDegree s
  | _ => false

/-- triggers that edges lead to -/
def incomingIssues (g : Graph) (triggers : List Key) : List Issue :=
  let reached := (triggers.filter (isReached g)).filterMap fun k => (Value.ofKey k).text?
  (reached.eraseDups.mergeSort fun a b => decide (a ≤ b)).map fun name =>
    ⟨.error, .triggerIncoming, "Trigger '" ++ name ++ "' has incoming connections", true, .text name⟩

/-- whether no edge leads to a node that needs one -/
def isDisconnected (g : Graph) (triggers : List Key) (n : Named) : Bool :=
  !triggers.contains n.key && !isReached g n.key

/-- nodes that no edge leads to -/
def disconnectedIssues (g : Graph) (triggers : List Key) (nodes : List Named) : List Issue :=
  (nodes.filter (isDisconnected g triggers)).map fun n =>
    ⟨.error, .disconnected, "Node '" ++ n.key.toText ++ "' has no incoming connection", true, .ofKey n.key⟩

/-! ## Single nodes -/

/-- how many rules a switch declares -/
def declaredBranches (n : Node) : Except Fault Nat :=
  match n.get "parameters" with
  | .object params =>
    match Value.field "rules" params with
    | .object rules =>
      match Value.field "rules" rules with
      | .list branches => .ok branches.length
      | _ => .ok 0
    | _ => .ok 0
  | v => if v.isFilled then .error .noFields else .ok 0

/-- empty ports among some ports counted from `first` -/
def emptyPorts (first : Nat) : List Port → List Nat
  | [] => []
  | p :: rest => if p.isEmpty then first :: emptyPorts (first + 1) rest else emptyPorts (first + 1) rest

/-- the ports of a switch against its rules -/
def switchIssues (c : Connections) (n : Named) : Except Fault (List Issue) := do
  if !n.node.isSwitch then return []
  let declared ← declaredBranches n.node
  let ports := c.ports n.key mainType
  let title := "Switch '" ++ n.key.toText ++ "' "
  let wrongCount :=
    if declared ≠ 0 ∧ ports.length ≠ declared then
      [.error .switch (title ++ "declares " ++ toString declared ++ " branches but has " ++ toString ports.length ++
        " output ports") (.ofKey n.key)]
    else []
  return wrongCount ++ (emptyPorts 0 ports).map fun i =>
    .error .switch (title ++ "output " ++ toString i ++ " is empty") (.ofKey n.key)

/-- a node whose output leads nowhere although a connected node follows on its row -/
def outgoingIssues (cfg : BuildConfig) (c : Connections) (candidates : List Node) (disconnected : List Key)
    (n : Named) : Except Fault (List Issue) := do
  if n.node.isConcluding || c.hasOutgoing n.key then return []
  match ← Rows.successor id (.whole cfg.rowTolerance) (.whole cfg.rowMinDx) n.node candidates with
  | none => return []
  | some follower =>
    let key ← follower.name.toKey
    if disconnected.contains key then return []
    return [⟨.warning, .noOutgoing,
      "Node '" ++ n.key.toText ++ "' has no outgoing connection but '" ++ key.toText ++ "' follows it", true,
      .ofKey n.key⟩]

/-- parameters that a node cannot do without -/
def parameterIssues (n : Named) : List Issue :=
  let missing := Parameters.missing n.node
  if missing.isEmpty then []
  else
    [⟨.warning, .parameters,
      "Node '" ++ n.key.toText ++ "' is missing parameters: " ++ Text.joinWith ", " missing, false, .ofKey n.key⟩]

/-! ## The report -/

/-- the issues of a document with nodes -/
def nodeIssues (cfg : BuildConfig) (document : Fields) (nodes : List Node) : Except Fault (List Issue) := do
  let nodes ← named nodes
  let triggers := triggerKeys nodes
  let g ← Graph.ofDocument document
  let c ← Connections.load (Value.field "connections" document)
  let keys := nodes.map (·.key)
  let disconnected := (nodes.filter (isDisconnected g triggers)).map (·.key)
  let switches ← nodes.mapM (switchIssues c)
  let candidates := (nodes.filter fun n => !n.node.isTrigger).map (·.node)
  let outgoing ← nodes.mapM (outgoingIssues cfg c candidates disconnected)
  return triggerIssues nodes ++ nameIssues nodes ++ danglingIssues keys [] (references c) ++
    incomingIssues g triggers ++ disconnectedIssues g triggers nodes ++ switches.flatten ++ outgoing.flatten ++
    nodes.flatMap parameterIssues

end Validation

/-- the report on a document -/
def validate (cfg : BuildConfig) : Value → Except Fault Report
  | .object document =>
    if !Schema.keysAreTexts document then .error .wrongKind
    else
      match Document.nodesOf (Value.field "nodes" document) with
      | [] => .ok ⟨Validation.schemaIssues document ++ [.error .empty "Workflow has no nodes" .null]⟩
      | nodes => (Validation.nodeIssues cfg document nodes).map fun found => ⟨Validation.schemaIssues document ++ found⟩
  | v => .ok ⟨[.error .schema ("Workflow must be an object, got " ++ v.kind.word) .null]⟩

end WorkflowGraph
