import WorkflowGraph.Proofs.Fault
import WorkflowGraph.Proofs.Node
import WorkflowGraph.Proofs.Schema
import WorkflowGraph.Validation
/-
What a report does not depend on. Code beside the parameters of nodes is nothing that a check looks at, and connections
count only as they are read.

- `nodeIssues_bare`: the checks of nodes and edges without that code.
- `validate_congr`: two documents that differ in nothing else have the same report.
-/
namespace WorkflowGraph

/-! ## Rows -/

namespace Rows

/-- a node with a distance, without the code beside its parameters -/
def Near.bare (x : Near Node) : Near Node := ⟨x.item.bare, x.distance⟩

theorem nearer_bare (best : Option (Near Node)) (other : Near Node) :
    nearer (best.map Near.bare) other.bare = (nearer best other).map Near.bare := by
  cases best with
  | none => rfl
  | some b =>
    unfold nearer
    simp only [Option.map_some]
    show (if other.distance.lt b.distance then _ else _) = _
    split <;> rfl

theorem nearest_bare (node : Node) (distance : Place → Place → Except Fault (Option Double)) (origin : Place)
    (best : Option (Near Node)) (l : List Node) :
    nearest id node.bare distance origin (best.map Near.bare) (l.map Node.bare) =
      (nearest id node distance origin best l).map (Option.map Near.bare) := by
  induction l generalizing best with
  | nil => rfl
  | cons c rest ih =>
    rw [List.map_cons, nearest, nearest]
    simp only [id_eq, Node.name_bare, Node.place_bare]
    split
    · exact ih best
    · cases c.place with
      | error e => rfl
      | ok place =>
        simp only [bind, Except.bind]
        cases distance origin place with
        | error e => rfl
        | ok d =>
          cases d with
          | none => exact ih best
          | some d =>
            have hnearer := nearer_bare best ⟨c, d⟩
            rw [Near.bare] at hnearer
            simp only [hnearer]
            exact ih _

theorem successor_bare (tolerance minDx : Numeric) (node : Node) (l : List Node) :
    successor id tolerance minDx node.bare (l.map Node.bare) =
      (successor id tolerance minDx node l).map (Option.map Node.bare) := by
  unfold successor
  rw [Node.place_bare]
  cases node.place with
  | error e => rfl
  | ok origin =>
    simp only [bind, Except.bind]
    have hnearest := nearest_bare node (rightDistance tolerance minDx) origin none l
    rw [Option.map_none] at hnearest
    rw [hnearest]
    cases nearest id node (rightDistance tolerance minDx) origin none l with
    | error e => rfl
    | ok found =>
      cases found with
      | none => rfl
      | some x => rfl

end Rows

namespace Validation

/-! ## Checks -/

/-- a named node without the code beside its parameters -/
def Named.bare (x : Named) : Named := ⟨x.key, x.node.bare⟩

theorem named_bare (nodes : List Node) : named (nodes.map Node.bare) = (named nodes).map (List.map Named.bare) := by
  unfold named
  rw [List.mapM_map, ← mapM_map_result]
  refine mapM_congr fun n _ => ?_
  rw [Function.comp_apply, Node.name_bare]
  cases n.name.toKey with
  | error e => rfl
  | ok k => rfl

theorem keys_bare (ns : List Named) : (ns.map Named.bare).map (·.key) = ns.map (·.key) := by
  rw [List.map_map]
  rfl

theorem triggerKeys_bare (ns : List Named) : triggerKeys (ns.map Named.bare) = triggerKeys ns := by
  have hfilter : (fun x : Named => x.node.isTrigger) ∘ Named.bare = fun x => x.node.isTrigger :=
    funext fun x => x.node.isTrigger_bare
  unfold triggerKeys
  rw [List.filter_map, hfilter, List.map_map]
  rfl

theorem triggerIssues_bare (ns : List Named) : triggerIssues (ns.map Named.bare) = triggerIssues ns := by
  rw [triggerIssues, triggerKeys_bare, triggerIssues]

theorem nameIssues_bare (ns : List Named) : nameIssues (ns.map Named.bare) = nameIssues ns := by
  unfold nameIssues nameCounts
  rw [List.foldl_map]
  rfl

theorem filter_isDisconnected_bare (g : Graph) (triggers : List Key) (ns : List Named) :
    (ns.map Named.bare).filter (isDisconnected g triggers) =
      (ns.filter (isDisconnected g triggers)).map Named.bare := by
  rw [List.filter_map]
  rfl

theorem disconnectedIssues_bare (g : Graph) (triggers : List Key) (ns : List Named) :
    disconnectedIssues g triggers (ns.map Named.bare) = disconnectedIssues g triggers ns := by
  unfold disconnectedIssues
  rw [filter_isDisconnected_bare, List.map_map]
  rfl

theorem declaredBranches_bare (n : Node) : declaredBranches n.bare = declaredBranches n := by
  unfold declaredBranches
  rw [Node.parameters_bare]

theorem switchIssues_bare (c : Connections) (x : Named) : switchIssues c x.bare = switchIssues c x := by
  unfold switchIssues Named.bare
  simp only [Node.isSwitch_bare, declaredBranches_bare]

theorem outgoingIssues_bare (cfg : BuildConfig) (c : Connections) (candidates : List Node) (disconnected : List Key)
    (x : Named) :
    outgoingIssues cfg c (candidates.map Node.bare) disconnected x.bare =
      outgoingIssues cfg c candidates disconnected x := by
  unfold outgoingIssues Named.bare
  simp only [Node.isConcluding_bare]
  split
  · rfl
  · rw [Rows.successor_bare]
    cases Rows.successor id (.whole cfg.rowTolerance) (.whole cfg.rowMinDx) x.node candidates with
    | error e => rfl
    | ok found =>
      cases found with
      | none => rfl
      | some follower =>
        simp only [Except.map, bind, Except.bind, Option.map_some, Node.name_bare]

theorem parameterIssues_bare (x : Named) : parameterIssues x.bare = parameterIssues x := by
  unfold parameterIssues Named.bare
  simp only [Node.missing_bare]

theorem followers_bare (ns : List Named) :
    ((ns.map Named.bare).filter fun n => !n.node.isTrigger).map (·.node) =
      ((ns.filter fun n => !n.node.isTrigger).map (·.node)).map Node.bare := by
  have hfilter : (fun x : Named => !x.node.isTrigger) ∘ Named.bare = fun x => !x.node.isTrigger :=
    funext fun x => congrArg not x.node.isTrigger_bare
  rw [List.filter_map, hfilter, List.map_map, List.map_map]
  rfl

theorem switches_bare (c : Connections) (ns : List Named) :
    (ns.map Named.bare).mapM (switchIssues c) = ns.mapM (switchIssues c) := by
  rw [List.mapM_map]
  refine mapM_congr fun x _ => ?_
  rw [Function.comp_apply, switchIssues_bare]

theorem outgoing_bare (cfg : BuildConfig) (c : Connections) (candidates : List Node) (disconnected : List Key)
    (ns : List Named) :
    (ns.map Named.bare).mapM (outgoingIssues cfg c (candidates.map Node.bare) disconnected) =
      ns.mapM (outgoingIssues cfg c candidates disconnected) := by
  rw [List.mapM_map]
  refine mapM_congr fun x _ => ?_
  rw [Function.comp_apply, outgoingIssues_bare]

theorem parameters_bare (ns : List Named) :
    (ns.map Named.bare).flatMap parameterIssues = ns.flatMap parameterIssues := by
  rw [List.flatMap_map]
  exact List.flatMap_congr fun x _ => parameterIssues_bare x

/-- the checks of nodes and edges do not look at code beside parameters -/
theorem nodeIssues_bare (cfg : BuildConfig) (document : Fields) (nodes : List Node) :
    nodeIssues cfg document (nodes.map Node.bare) = nodeIssues cfg document nodes := by
  unfold nodeIssues
  rw [named_bare]
  cases named nodes with
  | error e => rfl
  | ok ns =>
    simp only [Except.map, bind, Except.bind]
    simp only [triggerKeys_bare, keys_bare, followers_bare, filter_isDisconnected_bare, switches_bare, outgoing_bare,
      triggerIssues_bare, nameIssues_bare, disconnectedIssues_bare, parameters_bare]

/-! ## Shape -/

/-- the shape of a node says nothing about code beside its parameters -/
theorem node_violations_bare (path : List PathStep) (fields : Fields) :
    Schema.node.violations path (.object (Fields.bare fields)) = Schema.node.violations path (.object fields) := by
  have hnames : ∀ name ∈ ["id", "name", "type", "position", "parameters"], name ∉ Node.codeFields := by decide
  refine object_violations_congr (fun name hname => ?_) fun shape hshape => ?_
  · rw [Table.has_iff_get?, Table.has_iff_get?, Node.get?_bare (hnames name hname)]
  · have hname : shape.1 ∉ Node.codeFields := by
      simp only [List.mem_cons, List.not_mem_nil, or_false] at hshape
      rcases hshape with rfl | rfl | rfl | rfl | rfl | rfl | rfl <;> decide
    rw [Node.get?_bare hname]

/-- nodes that agree apart from code are found equally wrong -/
theorem nodeList_violations_congr {nodes nodes' : List Node} (h : nodes.map Node.bare = nodes'.map Node.bare)
    (path : List PathStep) :
    Schema.nodeList.violations path (.list (nodes.map Node.toValue)) =
      Schema.nodeList.violations path (.list (nodes'.map Node.toValue)) := by
  have bare : ∀ l : List Node, Schema.nodeList.violations path (.list (l.map Node.toValue)) =
      Schema.nodeList.violations path (.list ((l.map Node.bare).map Node.toValue)) := by
    intro l
    refine violations_congr rfl fun rule hrule => ?_
    simp only [List.mem_cons, List.not_mem_nil, or_false] at hrule
    rcases hrule with rfl | rfl
    · exact ⟨rfl, rfl⟩
    · refine ⟨rfl, ?_⟩
      simp only [SchemaRule.inner]
      rw [List.map_map, List.zipIdx_map, List.zipIdx_map, List.flatMap_map, List.flatMap_map]
      exact List.flatMap_congr fun x _ => (node_violations_bare _ x.1.fields).symm
  rw [bare nodes, h, ← bare nodes']

/-! ## Documents -/

/-- two documents that a check cannot tell apart -/
structure Alike (d d' : Fields) : Prop where
  keys : Schema.keysAreTexts d = Schema.keysAreTexts d'
  shape : schemaIssues d = schemaIssues d'
  /-- the nodes are lists of the same nodes, apart from code beside parameters -/
  nodes : ∃ nodes nodes', Document.nodes d = .ok nodes ∧ Document.nodes d' = .ok nodes' ∧
    Document.nodesOf (Value.field "nodes" d) = nodes ∧ Document.nodesOf (Value.field "nodes" d') = nodes' ∧
    nodes.map Node.bare = nodes'.map Node.bare
  connections : Connections.load (Value.field "connections" d) = Connections.load (Value.field "connections" d')

theorem nodeNames_bare (nodes : List Node) : Graph.nodeNames (nodes.map Node.bare) = Graph.nodeNames nodes := by
  have hstep : ∀ names n, Graph.addName names (Node.bare n) = Graph.addName names n := by
    intro names n
    simp only [Graph.addName, Node.name_bare, Node.carries_bare]
  unfold Graph.nodeNames
  rw [List.foldlM_map]
  simp only [hstep]

theorem Alike.graph {d d' : Fields} (h : Alike d d') : Graph.ofDocument d = Graph.ofDocument d' := by
  obtain ⟨nodes, nodes', hd, hd', -, -, hbare⟩ := h.nodes
  have hnames : Graph.nodeNames nodes = Graph.nodeNames nodes' := by
    rw [← nodeNames_bare nodes, hbare, nodeNames_bare]
  unfold Graph.ofDocument
  rw [hd, hd', h.connections]
  show (do let names ← Graph.nodeNames nodes; _) = (do let names ← Graph.nodeNames nodes'; _)
  rw [hnames]

/-- **Documents that a check cannot tell apart have the same report.** -/
theorem validate_congr {d d' : Fields} (h : Alike d d') (cfg : BuildConfig) :
    validate cfg (.object d) = validate cfg (.object d') := by
  obtain ⟨nodes, nodes', -, -, hd, hd', hbare⟩ := h.nodes
  have hissues : nodeIssues cfg d nodes = nodeIssues cfg d' nodes' := by
    rw [← nodeIssues_bare, hbare, nodeIssues_bare]
    unfold nodeIssues
    rw [h.graph, h.connections]
  simp only [validate]
  rw [h.keys, h.shape, hd, hd']
  cases nodes with
  | nil =>
    cases nodes' with
    | nil => rfl
    | cons n' rest' => cases hbare
  | cons n rest =>
    cases nodes' with
    | nil => cases hbare
    | cons n' rest' =>
      simp only [hissues]

end Validation

end WorkflowGraph
