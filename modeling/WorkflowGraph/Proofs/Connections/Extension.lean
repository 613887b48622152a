import WorkflowGraph.Proofs.Connections.Ports
/-
Connections that were extended. Every port there was keeps its edges in their order, apart from those that are not kept,
and what is added behind them leaves by the first main port.
-/
namespace WorkflowGraph

namespace Connections

/-- ports keep the edges that are kept, and only the first main port of a source gets others -/
structure Extends (kept : Edge → Bool) (c d : Connections) : Prop where
  /-- every port is still there -/
  length : ∀ source portType, (c.ports source portType).length ≤ (d.ports source portType).length
  /-- a port holds the edges that are kept in their order, then those that were added -/
  ports : ∀ source portType i, ∃ added, d.portAt source portType i = (c.portAt source portType i).filter kept ++ added ∧
    (added ≠ [] → portType = mainType ∧ i = 0)

variable {kept : Edge → Bool} {c d : Connections}

/-- connections extend those they were filtered from -/
theorem extends_filter (kept : Edge → Bool) (c : Connections) : Extends kept c (c.mapPorts (·.filter kept)) where
  length source portType := by rw [ports_mapPorts, List.length_map]
  ports source portType i := ⟨[], by rw [portAt_mapPorts c rfl, List.append_nil], fun h => absurd rfl h⟩

theorem Extends.connect (h : Extends kept c d) (source : Key) (target : String) (index : Nat) :
    Extends kept c (d.connect source target index) where
  length source' portType' := (h.length source' portType').trans (length_ports_addEdge_le _ _ _ _ _ _ _)
  ports source' portType' i := by
    obtain ⟨added, hports, hadded⟩ := h.ports source' portType' i
    unfold Connections.connect
    rw [portAt_addEdge]
    split
    · rename_i hplace
      have hfirst : portType' = mainType ∧ i = 0 := ⟨hplace.2.1.symm, hplace.2.2.symm⟩
      rw [hports]
      unfold insertEdge
      split
      · exact ⟨added, rfl, fun _ => hfirst⟩
      · exact ⟨added ++ [.plain target mainType index], List.append_assoc _ _ _, fun _ => hfirst⟩
    · exact ⟨added, hports, hadded⟩

/-- an edge that is kept is still there -/
theorem Extends.joins (h : Extends kept c d) {source : Key} {target : String} (hj : c.Joins source target)
    (hk : ∀ e : Edge, e.node = target → kept e = true) : d.Joins source target := by
  obtain ⟨portType, i, e, he, hnode⟩ := hj
  obtain ⟨added, hports, -⟩ := h.ports source portType i
  refine ⟨portType, i, e, ?_, hnode⟩
  rw [hports]
  exact List.mem_append_left _ (List.mem_filter.2 ⟨he, hk e hnode⟩)

end Connections

end WorkflowGraph
