import WorkflowGraph.Proofs.Connections.Shape
import WorkflowGraph.Proofs.Graph
import WorkflowGraph.Proofs.Validation.Invariance
/-
Documents that were put together from nodes and connections. A check reads these back from the document, so what it
finds is decided by them and by the other fields.

- `Holds.alike`: a check cannot tell two documents apart whose nodes agree apart from code, whose connections are read
  alike, and which agree in their other fields.
- `WellBuilt`: what every build gives, and what repair and post-processing rely on.
-/
namespace WorkflowGraph

namespace Document

/-- a document has given nodes and connections -/
structure Holds (document : Fields) (nodes : List Node) (c : Connections) : Prop where
  atNodes : Table.get? (.text "nodes") document = some (.list (nodes.map Node.toValue))
  atConnections : Table.get? (.text "connections") document = some c.toValue

/-- a document with nodes and connections written into it -/
theorem holds_putAll (document : Fields) (nodes : List Node) (c : Connections) :
    Holds (Table.putAll document [(.text "nodes", .list (nodes.map Node.toValue)), (.text "connections", c.toValue)])
      nodes c := by
  have hne : (Key.text "connections" == Key.text "nodes") = false := by decide
  constructor
  · show Table.get? _ (Table.put _ _ (Table.put _ _ _)) = _
    rw [Table.get?_put, hne, Table.get?_put]
    simp
  · show Table.get? _ (Table.put _ _ (Table.put _ _ _)) = _
    rw [Table.get?_put]
    simp

namespace Holds

variable {document : Fields} {nodes : List Node} {c : Connections}

theorem nodes_field (h : Holds document nodes c) : Value.field "nodes" document = .list (nodes.map Node.toValue) := by
  rw [Value.field, h.atNodes]
  rfl

theorem connections_field (h : Holds document nodes c) : Value.field "connections" document = c.toValue := by
  rw [Value.field, h.atConnections]
  rfl

theorem nodesOf (h : Holds document nodes c) : Document.nodesOf (Value.field "nodes" document) = nodes := by
  rw [h.nodes_field, nodesOf_map_toValue]

theorem nodes_eq (h : Holds document nodes c) : Document.nodes document = .ok nodes := by
  rw [nodes_of_list h.nodes_field, h.nodesOf]

/-- sources and port types of connections with texts for keys are texts in the document -/
theorem keysAreTexts (h : Holds document nodes c) (hc : ∀ x ∈ c.table, ∃ s, x.1 = .text s) :
    Schema.keysAreTexts document = true := by
  unfold Schema.keysAreTexts
  rw [h.connections_field, Connections.toValue]
  simp only [List.all_map, Bool.and_eq_true, List.all_eq_true, Function.comp_apply]
  constructor
  · intro x hx
    obtain ⟨s, hs⟩ := hc x hx
    rw [hs]
    rfl
  · intro x _
    simp only [Connections.portTableValue, List.all_map, List.all_eq_true, Function.comp_apply]
    exact fun _ _ => rfl

/-- **A check cannot tell two documents apart** that agree in their nodes apart from code, in what is read and what is
wrong with their connections, and in their other fields. -/
theorem alike {document' : Fields} {nodes' : List Node} {c' : Connections} (h : Holds document nodes c)
    (h' : Holds document' nodes' c')
    (hothers : ∀ name, name ≠ "nodes" → name ≠ "connections" →
      Table.get? (.text name) document = Table.get? (.text name) document')
    (hbare : nodes.map Node.bare = nodes'.map Node.bare) (hc : Connections.Keyed c) (hc' : Connections.Keyed c')
    (hshape : ∀ path, Schema.adjacency.violations path c.toValue = Schema.adjacency.violations path c'.toValue)
    (hload : Connections.load c.toValue = Connections.load c'.toValue) : Validation.Alike document document' where
  keys := by rw [h.keysAreTexts hc.texts, h'.keysAreTexts hc'.texts]
  shape := by
    unfold Validation.schemaIssues
    rw [workflow_violations_congr hothers h.atNodes h'.atNodes h.atConnections h'.atConnections
      (Validation.nodeList_violations_congr hbare _) (hshape _)]
  nodes := ⟨nodes, nodes', h.nodes_eq, h'.nodes_eq, h.nodesOf, h'.nodesOf, hbare⟩
  connections := by rw [h.connections_field, h'.connections_field, hload]

end Holds

/-- a document whose nodes have proper names and all their code as parameters, and whose connections can be read back -/
structure WellBuilt (document : Fields) (nodes : List Node) (c : Connections) : Prop extends
    Holds document nodes c where
  named : WellNamed nodes
  canonical : Connections.Canonical c
  covered : ∀ n ∈ nodes, n.Covered

end Document

end WorkflowGraph
