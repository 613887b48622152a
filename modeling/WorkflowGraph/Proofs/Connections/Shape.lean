import WorkflowGraph.Proofs.Connections.Canonical
import WorkflowGraph.Proofs.Schema
import WorkflowGraph.Proofs.Text.Blank
/-
The shape of connections that were written. Ports and edges of canonical connections are of the right shape, so that
only the names of sources and port types can be wrong with them.

- `adjacency_violations_mapPorts`: a change of the ports does not change what is wrong.
-/
namespace WorkflowGraph

namespace Connections

/-! ## Names -/

theorem strayNames_map {α : Type} (g g' : Key × α → Value) (l : List (Key × α)) :
    strayNames (l.map fun x => (x.1, g x)) = strayNames (l.map fun x => (x.1, g' x)) := by
  unfold strayNames
  rw [List.filterMap_map, List.filterMap_map]
  rfl

/-- fields that are found equally wrong one by one -/
theorem flatMap_namedFields_congr {α : Type} {g g' : Key × α → Value} {f : String × Value → List Violation}
    {l : List (Key × α)} (h : ∀ x ∈ l, ∀ name, f (name, g x) = f (name, g' x)) :
    (namedFields (l.map fun x => (x.1, g x))).flatMap f = (namedFields (l.map fun x => (x.1, g' x))).flatMap f := by
  induction l with
  | nil => rfl
  | cons x l ih =>
    rw [List.forall_mem_cons] at h
    have hrest := ih h.2
    unfold namedFields at hrest ⊢
    rw [List.map_cons, List.map_cons, List.filterMap_cons, List.filterMap_cons]
    obtain ⟨k, v⟩ := x
    cases k with
    | text s =>
      by_cases hline : isLine s = true
      · simp only [hline, if_true]
        rw [List.flatMap_cons, List.flatMap_cons, h.1 s, hrest]
      · simp only [hline]
        exact hrest
    | _ => exact hrest

/-! ## Ports -/

theorem edge_violations {portType : String} {e : Edge} (h : ReadableEdge portType e) (path : List PathStep) :
    Schema.edge.violations path e.toValue = [] := by
  have hnode : e.node ≠ "" := by
    intro hempty
    have hne := Text.isEmpty_eq_false_of_not_blank h.1
    rw [hempty] at hne
    cases hne
  refine violations_eq_nil_iff.2 fun rule hrule => ?_
  simp only [List.mem_cons, List.not_mem_nil, or_false] at hrule
  rcases hrule with rfl | rfl | rfl
  · exact ⟨rfl, rfl⟩
  · exact ⟨messages_required_eq_nil_iff.2 (by simp [Table.has]), rfl⟩
  · refine ⟨rfl, propertyViolations_eq_nil_iff.2 ?_⟩
    intro shape hshape v hv
    simp only [List.mem_cons, List.not_mem_nil, or_false] at hshape
    rcases hshape with rfl | rfl | rfl
    · have hv' : v = .text e.node := by simpa [Table.get?, Key.text_beq_text, eq_comm] using hv
      rw [hv']
      refine violations_eq_nil_iff.2 fun rule hrule => ?_
      simp only [List.mem_cons, List.not_mem_nil, or_false] at hrule
      rcases hrule with rfl | rfl
      · exact ⟨rfl, rfl⟩
      · exact ⟨messages_nonEmpty_eq_nil_iff.2 hnode, rfl⟩
    · have hv' : v = .text e.type := by simpa [Table.get?, Key.text_beq_text, eq_comm] using hv
      rw [hv']
      rfl
    · have hv' : v = .int e.index := by simpa [Table.get?, Key.text_beq_text, eq_comm] using hv
      rw [hv']
      refine violations_eq_nil_iff.2 fun rule hrule => ?_
      simp only [List.mem_cons, List.not_mem_nil, or_false] at hrule
      rcases hrule with rfl | rfl
      · exact ⟨rfl, rfl⟩
      · exact ⟨by simp [SchemaRule.messages], rfl⟩

/-- a list all of whose items are of a shape -/
theorem list_violations {shape : Schema} {values : List Value} {path : List PathStep}
    (h : ∀ v ∈ values, ∀ path, shape.violations path v = []) :
    (Schema.rules [.type [.array], .items shape]).violations path (.list values) = [] := by
  refine violations_eq_nil_iff.2 fun rule hrule => ?_
  simp only [List.mem_cons, List.not_mem_nil, or_false] at hrule
  rcases hrule with rfl | rfl
  · exact ⟨rfl, rfl⟩
  · refine ⟨rfl, inner_items_eq_nil_iff.2 fun x hx => h x.1 ?_ _⟩
    exact List.fst_mem_of_mem_zipIdx hx

/-- the ports of one type are of the right shape -/
theorem portList_violations {portType : String} {ports : List Port} (h : ∀ p ∈ ports, Readable portType p)
    (path : List PathStep) : Schema.portList.violations path (.list (ports.map portValue)) = [] := by
  refine list_violations fun v hv path => ?_
  obtain ⟨p, hp, rfl⟩ := List.mem_map.1 hv
  refine list_violations fun v hv path => ?_
  obtain ⟨e, he, rfl⟩ := List.mem_map.1 hv
  exact edge_violations (h p hp e he) path

/-! ## Sources -/

/-- objects with the same names, whose fields are found equally wrong -/
theorem named_violations_congr {α : Type} {shape : Schema} {g g' : Key × α → Value} {l : List (Key × α)}
    (h : ∀ x ∈ l, ∀ path, shape.violations path (g x) = shape.violations path (g' x)) (path : List PathStep) :
    (Schema.rules [.type [.object], .named shape, .onlyNamed]).violations path (.object (l.map fun x => (x.1, g x))) =
      (Schema.rules [.type [.object], .named shape, .onlyNamed]).violations path
        (.object (l.map fun x => (x.1, g' x))) := by
  refine violations_congr rfl fun rule hrule => ?_
  simp only [List.mem_cons, List.not_mem_nil, or_false] at hrule
  rcases hrule with rfl | rfl | rfl
  · exact ⟨rfl, rfl⟩
  · exact ⟨rfl, flatMap_namedFields_congr fun x hx name => h x hx _⟩
  · refine ⟨?_, rfl⟩
    simp only [SchemaRule.messages]
    rw [strayNames_map g g']

/-- a change of the ports of a source does not change what is wrong with it -/
theorem portTable_violations_map {t : PortTable} {f : Port → Port} (h : ∀ y ∈ t, ∀ p ∈ y.2, Readable y.1 p)
    (hf : ∀ y ∈ t, ∀ p ∈ y.2, Readable y.1 (f p)) (path : List PathStep) :
    Schema.portTable.violations path (portTableValue (t.map fun y => (y.1, y.2.map f))) =
      Schema.portTable.violations path (portTableValue t) := by
  let entries := t.map fun y => (Key.text y.1, y)
  have hmapped : portTableValue (t.map fun y => (y.1, y.2.map f)) =
      .object (entries.map fun z => (z.1, .list ((z.2.2.map f).map portValue))) := by
    rw [portTableValue, List.map_map, List.map_map]
    rfl
  have hplain : portTableValue t = .object (entries.map fun z => (z.1, .list (z.2.2.map portValue))) := by
    rw [portTableValue, List.map_map]
    rfl
  rw [hmapped, hplain]
  refine named_violations_congr (fun z hz path => ?_) path
  obtain ⟨y, hy, rfl⟩ := List.mem_map.1 hz
  rw [portList_violations (List.forall_mem_map.2 (hf y hy)), portList_violations (h y hy)]

/-- a change of the ports does not change what is wrong with connections, as long as all edges can be read -/
theorem adjacency_violations_mapPorts {c : Connections} {f : Port → Port} (h : EachPort Readable c)
    (hf : EachPort Readable (c.mapPorts f)) (path : List PathStep) :
    Schema.adjacency.violations path (c.mapPorts f).toValue = Schema.adjacency.violations path c.toValue := by
  have hvalue : (c.mapPorts f).toValue =
      .object (c.table.map fun x => (x.1, portTableValue (x.2.map fun y => (y.1, y.2.map f)))) := by
    unfold toValue
    rw [mapPorts_table, List.map_map]
    rfl
  rw [hvalue]
  refine named_violations_congr (fun x hx path => portTable_violations_map (h x hx) (fun y hy p hp => ?_) path) path
  rw [EachPort, mapPorts_table] at hf
  exact hf _ (List.mem_map_of_mem hx) _ (List.mem_map_of_mem hy) _ (List.mem_map_of_mem hp)

end Connections

end WorkflowGraph
