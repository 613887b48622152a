import WorkflowGraph.Proofs.Connections.Ports
/-
The first edge on each main port of a source. A walk along a branch follows the first edge on the first port, and the
branches of a switch begin with the first edges on all of its ports. Edges that are added later leave first edges alone.

- `headAt_addEdge`: what an edge does to the first edges.
- `Converges`: the branches of a source run together.
-/
namespace WorkflowGraph

namespace Connections

/-- where the first edge on a main port of a source leads -/
def headAt (c : Connections) (source : String) (i : Nat) : Option String :=
  (c.portAt (.text source) mainType i).head?.map (·.node)

variable {c d : Connections}

/-- a walk along a branch follows the first edge on the first port -/
theorem firstTarget_eq (c : Connections) (source : String) : c.firstTarget (.text source) = c.headAt source 0 := by
  unfold firstTarget headAt portAt
  rcases c.ports (.text source) mainType with _ | ⟨_ | ⟨e, port⟩, ports⟩ <;> rfl

theorem mem_portAt_of_headAt {source t : String} {i : Nat} (h : c.headAt source i = some t) :
    ∃ e ∈ c.portAt (.text source) mainType i, e.node = t := by
  obtain ⟨e, he, rfl⟩ := Option.map_eq_some_iff.1 h
  exact ⟨e, List.mem_of_mem_head? he, rfl⟩

theorem joins_of_headAt {source t : String} {i : Nat} (h : c.headAt source i = some t) : c.Joins (.text source) t := by
  obtain ⟨e, he, hnode⟩ := mem_portAt_of_headAt h
  exact ⟨mainType, i, e, he, hnode⟩

/-- a source with an edge on a port has an output that leads somewhere -/
theorem hasOutgoing_of_mem_portAt {source : Key} {portType : String} {i : Nat} {e : Edge}
    (he : e ∈ c.portAt source portType i) : c.hasOutgoing source = true := by
  unfold portAt Connections.ports at he
  cases hports : Table.get? portType (c.portTable source) with
  | none => simp [hports] at he
  | some ports =>
    rw [hports, Option.getD_some] at he
    obtain ⟨_, -, hmem⟩ := Table.exists_mem_of_get? hports
    cases hi : ports[i]? with
    | none => simp [hi] at he
    | some port =>
      rw [hi, Option.getD_some] at he
      have hport : ports.any (fun p => !p.isEmpty) = true :=
        List.any_eq_true.2 ⟨port, List.mem_of_getElem? hi, by simpa using List.ne_nil_of_mem he⟩
      exact List.any_eq_true.2 ⟨_, hmem, hport⟩

/-! ## Operations -/

/-- an edge is the first one on its port if there is no other -/
theorem headAt_addEdge (c : Connections) (source name : String) (port i : Nat) (e : Edge) :
    (c.addEdge (.text source) mainType port e).headAt name i =
      (c.headAt name i).or (if source = name ∧ port = i then some e.node else none) := by
  unfold headAt
  simp only [portAt_addEdge, Key.text_beq_text, decide_eq_true_eq, true_and]
  by_cases hplace : source = name ∧ port = i
  · rw [if_pos hplace, if_pos hplace]
    unfold insertEdge
    rcases c.portAt (.text name) mainType i with _ | ⟨first, rest⟩
    · simp
    · split <;> simp
  · rw [if_neg hplace, if_neg hplace, Option.or_none]

/-- more ports have no first edges -/
theorem headAt_ensurePorts (c : Connections) (source name : String) (count i : Nat) :
    (c.ensurePorts (.text source) mainType count).headAt name i = c.headAt name i := by
  rw [headAt, portAt_ensurePorts, headAt]

/-! ## Branches that run together -/

/-- the branches of a source run together: only its first main port leads anywhere, or the nodes that its main ports
lead to first all go on to one node -/
def Converges (c : Connections) (source : String) : Prop :=
  (∀ i, 0 < i → c.headAt source i = none) ∨
    ((c.headAt source 0).isSome ∧ ∃ merge, ∀ i t, c.headAt source i = some t → c.headAt t 0 = some merge)

/-- more edges leave branches together, unless they open another one -/
theorem Converges.mono {source : String} (h : c.Converges source)
    (hkept : ∀ name i t, c.headAt name i = some t → d.headAt name i = some t)
    (hnone : ∀ i, 0 < i → c.headAt source i = none → d.headAt source i = none) : d.Converges source := by
  rcases h with honly | ⟨hfirst, merge, hmerge⟩
  · exact Or.inl fun i hi => hnone i hi (honly i hi)
  · obtain ⟨first, hfirst⟩ := Option.isSome_iff_exists.1 hfirst
    refine Or.inr ⟨Option.isSome_iff_exists.2 ⟨first, hkept _ _ _ hfirst⟩, merge, fun i t ht => ?_⟩
    refine hkept _ _ _ (hmerge i t ?_)
    cases hold : c.headAt source i with
    | some t' => rw [← ht, hkept _ _ _ hold]
    | none =>
      rcases Nat.eq_zero_or_pos i with rfl | hi
      · rw [hfirst] at hold
        cases hold
      · rw [hnone i hi hold] at ht
        cases ht

end Connections

end WorkflowGraph
