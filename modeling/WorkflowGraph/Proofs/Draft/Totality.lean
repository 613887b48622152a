import WorkflowGraph.Proofs.Connections.Descriptors
import WorkflowGraph.Proofs.Draft.Build
import WorkflowGraph.Proofs.Draft.Preservation
/-
Which drafts become documents. A draft with nodes or connections becomes one unless an edge in its connections has an
infinite input: whatever else it says is kept, mended or left out. Keeping a node brings in no field that a graph keeps
for itself, and takes none away.

- `succeeds_build_iff`: when a draft is built.
- `carries_keepNodes`: which nodes of the document a graph can carry.
-/
namespace WorkflowGraph

namespace Draft

/-- a draft has what a document is built from -/
def HasShape (draft : Fields) : Prop :=
  Table.has (Key.text "nodes") draft = true ∨ Table.has (Key.text "connections") draft = true

instance (draft : Fields) : Decidable (HasShape draft) := inferInstanceAs (Decidable (_ ∨ _))

theorem minimalShape_eq {draft : Fields} (h : HasShape draft) : minimalShape (.object draft) = .ok draft := by
  rw [minimalShape, if_pos (Bool.or_eq_true_iff.2 h)]

/-- **When a draft is built**, as long as the clock can be told. -/
theorem succeeds_build_iff {resolver : Resolver} {sources : Identifiers} {draft : Fields} (hshape : HasShape draft)
    (hclock : Succeeds sources.versionId) :
    Succeeds (build resolver sources (.object draft)) ↔
      ∀ v ∈ Connections.descriptors (Value.field "connections" draft), ¬ Connections.Endless v := by
  rw [← Connections.succeeds_load_iff]
  constructor
  · rintro ⟨built, hbuilt⟩
    obtain ⟨fields, -, c, hfields, hload, -⟩ := build_eq_ok hbuilt
    rw [minimalShape_eq hshape] at hfields
    cases hfields
    exact ⟨c, hload⟩
  · rintro ⟨c, hc⟩
    obtain ⟨version, hversion⟩ := hclock
    obtain ⟨⟨document, sources'⟩, hdocument⟩ := exists_newDocument hversion
      (if (Value.field "name" draft).isText then Value.field "name" draft else "Workflow")
    have hfields : (minimalShape (.object draft)).mapError Fault.structural = .ok draft :=
      mapError_eq_ok.2 (minimalShape_eq hshape)
    exact ⟨_, bind_eq_ok.2 ⟨draft, hfields, bind_eq_ok.2 ⟨_, hdocument, bind_eq_ok.2 ⟨c, hc, rfl⟩⟩⟩⟩

/-! ## Fields that a graph keeps for itself -/

/-- a key that a graph carries over -/
def isFree : Key → Bool
  | .text s => s != "self" && s != "node_for_adding"
  | _ => false

theorem carries_eq (fields : Fields) : Graph.carries ⟨fields⟩ = (Table.keys fields).all isFree := by
  rw [Graph.carries, Table.keys, List.all_map]
  rfl

/-- writing a field that the graph does not keep for itself -/
theorem carries_put {name : String} (h : name ∉ ["self", "node_for_adding"]) (v : Value) (fields : Fields) :
    Graph.carries ⟨Table.put (.text name) v fields⟩ = Graph.carries ⟨fields⟩ := by
  rw [carries_eq, carries_eq, Table.keys_put]
  split
  · rfl
  · simp only [List.mem_cons, List.not_mem_nil, or_false, not_or] at h
    simp [isFree, h.1, h.2]

theorem carries_keepNode (resolver : Resolver) (index : Nat) (used : Used) (raw : Fields) :
    Graph.carries ⟨(keepNode resolver index used raw).1.fields⟩ = Graph.carries ⟨raw⟩ := by
  have hplaced : ∀ (type name id : String) (position : Value),
      Graph.carries ⟨placed raw type name id position⟩ = Graph.carries ⟨raw⟩ := by
    intro type name id position
    have hfound : Graph.carries ⟨Table.putAll raw (foundFields type name id position)⟩ = Graph.carries ⟨raw⟩ := by
      simp only [foundFields, Table.putAll, List.foldl_cons, List.foldl_nil]
      rw [carries_put (by decide), carries_put (by decide), carries_put (by decide), carries_put (by decide)]
    unfold placed
    dsimp only
    split
    · exact hfound
    · exact (carries_put (by decide) _ _).trans hfound
  rw [fields_keepNode]
  unfold withWebhook
  split
  · rw [carries_put (by decide), carries_put (by decide), hplaced]
  · rw [carries_put (by decide), hplaced]

/-- **A graph can carry the nodes of the document** when it can carry those that the draft gives. -/
theorem carries_keepNodes (resolver : Resolver) (sources : Identifiers) (draft : Fields) :
    (∀ n ∈ (keepNodes resolver sources draft).nodes, Graph.carries n = true) ↔
      ∀ n ∈ Document.nodesOf (Value.field "nodes" draft), Graph.carries n = true := by
  refine keepNodes_induction (P := fun done s =>
    (∀ n ∈ s.nodes, Graph.carries n = true) ↔ ∀ n ∈ done, Graph.carries n = true) resolver sources draft ?_ ?_ ?_
  · simp
  · intro done s raw index _ h
    rw [nodes_keepEntry, List.forall_mem_append, List.forall_mem_append, h, List.forall_mem_singleton,
      List.forall_mem_singleton, carries_keepNode]
  · exact fun done s trace h => h

end Draft

end WorkflowGraph
