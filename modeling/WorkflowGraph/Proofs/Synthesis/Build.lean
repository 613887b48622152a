import WorkflowGraph.Proofs.Document
import WorkflowGraph.Proofs.Naming
import WorkflowGraph.Proofs.Synthesis.Layout
/-
Documents of plans. Every step of a layout leaves nodes with names of their own and connections that can be read back,
and no node has code beside its parameters.

- `sound_of_leads`: what holds of a canvas after any steps.
- `build_shows`: the document of a plan shows its layout.
- `build_wellBuilt`: what repair and post-processing rely on.
-/
namespace WorkflowGraph

/-! ## Nodes -/

namespace PlacedNode

theorem name_toNode (n : PlacedNode) : n.toNode.name = .text n.name := by
  simp [Node.name, Node.get, Value.field, toNode, Table.get?, Key.text_beq_text]

theorem tag_toNode (n : PlacedNode) : n.toNode.tag = n.type := by
  have htype : n.toNode.get "type" = .text n.type := by
    simp [Node.get, Value.field, toNode, Table.get?, Key.text_beq_text]
  rw [Node.tag, htype, Value.toTag_text]

theorem isTrigger_toNode (n : PlacedNode) : n.toNode.isTrigger = Catalog.isTriggerType n.type := by
  rw [Node.isTrigger, tag_toNode]

theorem position_toNode (n : PlacedNode) : n.toNode.get "position" = .list [.int n.x, .int n.y] := by
  simp [Node.get, Value.field, toNode, Table.get?, Key.text_beq_text]

/-- no code stands beside the parameters -/
theorem covered_toNode (n : PlacedNode) : n.toNode.Covered := by
  have hnone : ∀ name ∈ Node.codeFields, Table.has (Key.text name) n.toNode.fields = false := by
    intro name hname
    simp only [Node.codeFields, List.mem_cons, List.not_mem_nil, or_false] at hname
    rcases hname with rfl | rfl | rfl | rfl <;> cases n.webhookId <;>
      simp [toNode, Table.has, Key.text_beq_text]
  refine ⟨n.parameters, ?_, fun name hname hhas => ?_⟩
  · simp [toNode, Table.get?, Key.text_beq_text]
  · rw [hnone name hname] at hhas
    cases hhas

end PlacedNode

namespace Canvas

/-! ## The canvas -/

/-- nodes have names of their own, all of them taken, and the connections can be read back as they are -/
structure Sound (c : Canvas) : Prop where
  named : WellNamed (c.nodes.map PlacedNode.toNode)
  registered : Registered (c.nodes.map PlacedNode.toNode) c.names
  canonical : c.connections.Canonical
  simple : c.connections.Simple

theorem sound_empty (sources : Identifiers) : Sound (.empty sources) where
  named := wellNamed_nil
  registered := registered_nil _
  canonical := Connections.canonical_empty
  simple := by simp [Connections.Simple, Connections.EachPort, Canvas.empty, Connections.empty]

/-- the name of a node on the canvas is not blank -/
theorem Sound.not_blank {c : Canvas} (h : Sound c) {name : String} (hp : c.Places name) :
    Text.isBlankText name = false := by
  obtain ⟨n, hn, rfl⟩ := hp
  obtain ⟨s, hs, hblank⟩ := h.named.texts n.toNode (List.mem_map_of_mem hn)
  rw [n.name_toNode] at hs
  cases hs
  exact hblank

/-- no two nodes have the same name -/
theorem Sound.distinct {c : Canvas} (h : Sound c) : (c.nodes.map (·.name)).Nodup := by
  have hnames : ((c.nodes.map (·.name)).map Value.text).Nodup := by
    have hnodes := h.named.distinct
    rw [List.map_map, List.map_congr_left fun n _ => n.name_toNode] at hnodes
    rw [List.map_map]
    exact hnodes
  exact List.Nodup.of_map _ hnames

theorem Sound.eq_of_name {c : Canvas} (h : Sound c) {n m : PlacedNode} (hn : n ∈ c.nodes) (hm : m ∈ c.nodes)
    (heq : n.name = m.name) : n = m :=
  List.inj_on_of_nodup_map h.distinct hn hm heq

/-- the name of a new node is new -/
theorem Sound.new {c : Canvas} (h : Sound c) (r : NodeRequest) : ∀ n ∈ c.nodes, n.name ≠ (c.newNode r).name := by
  intro n hn heq
  refine h.registered.new r.wanted n.toNode (List.mem_map_of_mem hn) ?_
  rw [n.name_toNode, heq]
  rfl

theorem Sound.step {c d : Canvas} (h : Sound c) (hstep : Step c d) : Sound d := by
  cases hstep with
  | noted rule detail => exact ⟨h.named, h.registered, h.canonical, h.simple⟩
  | turned branch y => exact ⟨h.named, h.registered, h.canonical, h.simple⟩
  | added r =>
    have hlist : (c.add r).2.nodes.map PlacedNode.toNode =
        c.nodes.map PlacedNode.toNode ++ [(c.newNode r).toNode] := by
      rw [nodes_add, List.map_append]
      rfl
    have hname := (c.newNode r).name_toNode
    refine ⟨?_, ?_, connections_add c r ▸ h.canonical, connections_add c r ▸ h.simple⟩
    · rw [hlist]
      exact h.named.snoc h.registered hname
    · rw [hlist, names_add]
      exact h.registered.snoc hname
  | connected source port target index hsource htarget =>
    refine ⟨h.named, h.registered, h.canonical.addEdge source port ?_, h.simple.addEdge _ _ port _⟩
    exact Connections.readableEdge_plain (h.not_blank htarget) mainType index
  | opened source count hsource =>
    exact ⟨h.named, h.registered, h.canonical.ensurePorts source mainType count, h.simple.ensurePorts _ _ _⟩

/-- what steps lead to is sound -/
theorem sound_of_leads {c d : Canvas} (h : Leads c d) (hc : Sound c) : Sound d := by
  induction h with
  | refl => exact hc
  | tail _ hstep ih => exact ih.step hstep

end Canvas

namespace Synthesis

open Canvas

/-! ## The document -/

theorem sound_lay (cfg : BuildConfig) (sources : Identifiers) (p : Plan) : Sound (lay cfg sources p) :=
  sound_of_leads (lay_leads cfg sources p) (sound_empty sources)

/-- the document of a plan has the nodes and connections of its layout -/
theorem build_holds {cfg : BuildConfig} {sources : Identifiers} {p : Plan} {built : Built}
    (h : build cfg sources p = .ok built) :
    ∃ sources', Document.Holds built.document ((lay cfg sources' p).nodes.map PlacedNode.toNode)
      (lay cfg sources' p).connections := by
  obtain ⟨⟨document, sources'⟩, -, h⟩ := bind_eq_ok.1 h
  cases h
  have hholds := Document.holds_putAll document ((lay cfg sources' p).nodes.map PlacedNode.toNode)
    (lay cfg sources' p).connections
  rw [List.map_map] at hholds
  exact ⟨sources', hholds⟩

/-- a document shows a canvas: it has the nodes and the connections that were laid out, and they are read back as they
are -/
structure Shows (document : Fields) (c : Canvas) : Prop extends
    Document.Holds document (c.nodes.map PlacedNode.toNode) c.connections where
  load : Connections.load (Value.field "connections" document) = .ok c.connections

/-- the document of a plan shows its layout -/
theorem build_shows {cfg : BuildConfig} {sources : Identifiers} {p : Plan} {built : Built}
    (h : build cfg sources p = .ok built) : ∃ sources', Shows built.document (lay cfg sources' p) := by
  obtain ⟨sources', hholds⟩ := build_holds h
  have hsound := sound_lay cfg sources' p
  refine ⟨sources', hholds, ?_⟩
  rw [hholds.connections_field, Connections.load_toValue_simple hsound.canonical hsound.simple]

/-- **The document of a plan** has nodes with names of their own, without code beside their parameters, and connections
that can be read back. -/
theorem build_wellBuilt {cfg : BuildConfig} {sources : Identifiers} {p : Plan} {built : Built}
    (h : build cfg sources p = .ok built) : ∃ nodes c, Document.WellBuilt built.document nodes c := by
  obtain ⟨sources', hholds⟩ := build_holds h
  have hsound := sound_lay cfg sources' p
  refine ⟨_, _, hholds, hsound.named, hsound.canonical, fun n hn => ?_⟩
  obtain ⟨node, -, rfl⟩ := List.mem_map.1 hn
  exact node.covered_toNode

/-! ## A plan with every motif -/

def plainStep (name : String) : Requirement :=
  ⟨name, "", "n8n-nodes-base.set", 1, .double (Double.ofNat 1), false, false, false, none⟩

/-- a branch with a switch that nothing follows -/
def returnsBranch : PlanBranch :=
  ⟨2, "Returns", "manual", [plainStep "Card", { plainStep "Route return" with isSwitch := true }]⟩

/-- two branches and the handling of errors; the first branch has parallel rows and a switch with two routes -/
def ordersPlan : Plan where
  workflowName := "Orders"
  branches := [
    ⟨1, "Orders", "webhook", [{ plainStep "Notify" with isParallel := true }, plainStep "Send email",
      plainStep "Send sms", { plainStep "Route order" with isSwitch := true }, plainStep "Card", plainStep "Bank"]⟩,
    returnsBranch]
  complexity := none
  concerns := [Plan.errorHandling]

def ordersSources : Identifiers := ⟨fun i => i, 0, "0123456789abcdef", Double.ofNat 1, 0⟩

theorem exists_build_ordersPlan : ∃ built, build .standard ordersSources ordersPlan = .ok built ∧
    (Document.nodesOf (Value.field "nodes" built.document)).length = 15 := by
  obtain ⟨built, hbuilt, hlength⟩ := exists_ok_of_any
    (p := fun built => (Document.nodesOf (Value.field "nodes" built.document)).length == 15)
    (by decide +kernel : ((build .standard ordersSources ordersPlan).toOption.any _) = true)
  exact ⟨built, hbuilt, by simpa using hlength⟩

end Synthesis

end WorkflowGraph
