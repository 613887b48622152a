import WorkflowGraph.Proofs.Repair.Improvement
/-
Repairs of documents that were built. Such a document is still one after its repair; and a repair without a fix, which
may leave out edges that stand twice on a port, has changed nothing that a check can tell.

- `moves_counted`: every move that changes something counts.
- `repair_mends_built`: the steps of such a repair.
- `repair_built`: the document after a repair.
-/
namespace WorkflowGraph

namespace Repair

/-- moves without a fix change nothing -/
theorem moves_counted {s t : State} (h : Relation.ReflTransGen Move s t) : Counted s t := by
  induction h with
  | refl => exact Counted.refl s
  | @tail u t _ hmove ih =>
    refine ih.trans ?_
    cases hmove with
    | noted rule detail hrule => exact ⟨Nat.le_refl _, fun _ => rfl, fun _ => rfl⟩
    | merged name x y ends detail hnew hname hends hknown =>
      refine counted_of_lt ?_
      show u.fixes < u.fixes + (1 + ends.length)
      omega
    | connected source target key rule detail hsource hkey htarget hopen hrule =>
      exact counted_of_lt (Nat.lt_succ_self u.fixes)

/-- a repair of a document that was built starts from its nodes and goes through all its steps -/
theorem repair_mends_built {cfg : BuildConfig} {document : Fields} {nodes : List Node} {c : Connections} {r : Repaired}
    (h : Document.WellBuilt document nodes c) (hr : repair cfg (.object document) = .ok r) :
    ∃ start s, canonicalize document nodes = .ok start ∧ start.nodes = nodes ∧ mend cfg start = .ok s ∧
      r = ⟨.object (written document s), s.fixes, s.trace⟩ := by
  have hnodes : (nodes.map Node.toValue).filterMap Node.ofValue? = nodes := Document.nodesOf_map_toValue nodes
  have htexts : ∀ n ∈ nodes, ∃ s, n.name = .text s := fun n hn => (h.named.texts n hn).imp fun _ hs => hs.1
  obtain ⟨start, s, hstart, hs, hr⟩ := repair_mends hr h.nodes_field (by rwa [hnodes])
  rw [hnodes] at hstart
  obtain ⟨-, -, hsame, -⟩ := canonicalize_connections hstart
  exact ⟨start, s, hstart, hsame, hs, hr⟩

/-- a merge node has no code anywhere -/
theorem covered_mergeNode (id name : String) (x y : Double) : (mergeNode id name x y).Covered := by
  refine ⟨_, rfl, fun field hfield hhas => ?_⟩
  simp only [Node.codeFields, List.mem_cons, List.not_mem_nil, or_false] at hfield
  rcases hfield with rfl | rfl | rfl | rfl <;> cases hhas

/-- **A document that was built is still one after its repair**, and a repair without a fix is nothing that a check can
tell. -/
theorem repair_built {cfg : BuildConfig} {document : Fields} {nodes : List Node} {c : Connections} {r : Repaired}
    (h : Document.WellBuilt document nodes c) (hr : repair cfg (.object document) = .ok r) :
    ∃ document' nodes' c', r.document = .object document' ∧ Document.WellBuilt document' nodes' c' ∧
      (r.fixes = 0 → Validation.Alike document document') := by
  obtain ⟨start, s, hstart, hsame, hs, rfl⟩ := repair_mends_built h hr
  obtain ⟨d, hload, hmended⟩ := mended_of_mend hstart hs h.named
  obtain ⟨d', hload', -, -, hidle⟩ := canonicalize_connections hstart
  have hmoves := mend_moves hs
  have hwritten := holds_written document s
  refine ⟨written document s, s.nodes, s.connections, rfl, ?_, fun hfixes => ?_⟩
  · exact ⟨hwritten, hmended.named, hmended.canonical, moves_forall hmoves covered_mergeNode (hsame ▸ h.covered)⟩
  · have hcounted := moves_counted hmoves
    have hfirst : start.fixes = 0 := Nat.le_zero.1 (hfixes ▸ hcounted.le)
    have hnodes' : s.nodes = nodes := (hcounted.nodes (hfixes.trans hfirst.symm)).trans hsame
    have hconnections : s.connections = c.mapPorts Connections.once := by
      rw [hcounted.connections (hfixes.trans hfirst.symm), hidle hfirst]
      rw [h.connections_field, Connections.load_toValue h.canonical] at hload'
      exact (Except.ok.inj hload').symm
    have hreadable := hmended.canonical.readable
    rw [hconnections] at hreadable
    refine h.toHolds.alike hwritten ?_ (by rw [hnodes']) h.canonical.toKeyed hmended.canonical.toKeyed ?_ ?_
    · intro name hname hname'
      refine (get?_written document s ?_ ?_).symm
      · rw [Key.text_beq_text, decide_eq_false (Ne.symm hname)]
      · rw [Key.text_beq_text, decide_eq_false (Ne.symm hname')]
    · intro path
      rw [hconnections, Connections.adjacency_violations_mapPorts h.canonical.readable hreadable]
    · rw [Connections.load_toValue_simple hmended.canonical hmended.simple, hconnections,
        Connections.load_toValue h.canonical]

end Repair

end WorkflowGraph
