import WorkflowGraph.Proofs.Repair.Conservation
/-
Repairs that are not given up. Only a list or an object for a name makes a repair give up, and merge nodes have texts
for names.

- `scalar_mend`: without such names a repair does not give up.
- `repair_mends`: one that gives a result has then gone through all its steps.
-/
namespace WorkflowGraph

namespace Repair

theorem scalar_toKey {n : Node} (h : Succeeds n.name.toKey) : Scalar n.name.toKey := by
  obtain ⟨key, hkey⟩ := h
  rw [hkey]
  exact scalar_ok _

theorem scalar_rightmost (x : Double) (nodes : List Node) : Scalar (rightmost x nodes) := by
  induction nodes generalizing x with
  | nil => exact scalar_ok _
  | cons n nodes ih => exact scalar_bind (Rows.scalar_place n) fun _ _ => ih _

/-! ## The steps -/

theorem scalar_reconverge (cfg : BuildConfig) (acc : State × NameRegistry) {sw : Node} (h : Scalar sw.name.toKey) :
    Scalar (reconverge cfg acc sw) := by
  refine scalar_bind h fun source _ => ?_
  simp only [NameRegistry.claim]
  split
  · refine scalar_bind (Rows.scalar_place _) fun _ _ => scalar_bind (scalar_rightmost _ _) fun _ _ => ?_
    exact scalar_bind (Rows.scalar_toDouble _) fun _ _ => scalar_bind (Rows.scalar_place _) fun _ _ => scalar_ok _
  · exact scalar_ok _

theorem scalar_reconvergeAll (cfg : BuildConfig) {s : State} (h : ∀ n ∈ s.nodes, Succeeds n.name.toKey) :
    Scalar (reconvergeAll cfg s) := by
  refine scalar_bind (scalar_mapM fun n hn => scalar_toKey (h n hn)) fun keys _ => ?_
  refine scalar_bind ?_ fun _ _ => scalar_ok _
  refine scalar_foldlM (P := fun _ => True) trivial (fun acc sw hsw _ => ?_) fun _ _ _ _ _ _ => trivial
  exact scalar_reconverge cfg acc (scalar_toKey (h sw (List.mem_of_mem_filter hsw)))

theorem scalar_connectAll (cfg : BuildConfig) {s : State} (h : ∀ n ∈ s.nodes, Succeeds n.name.toKey) :
    Scalar (connectAll cfg s) := by
  have hplaced : Scalar (withPlaces s.nodes) := scalar_mapM fun n _ => scalar_map (Rows.scalar_place n) _
  refine scalar_bind hplaced fun placed hp => ?_
  have mem : ∀ p ∈ placed.mergeSort fun a b => !b.1.lt a.1, p.2 ∈ s.nodes := by
    intro p hmem
    rw [List.mem_mergeSort] at hmem
    obtain ⟨n, hn, hpn⟩ := exists_of_mem_mapM hp hmem
    obtain ⟨place, -, rfl⟩ := map_eq_ok.1 hpn
    exact hn
  refine scalar_foldlM (P := fun t => t.nodes = s.nodes) rfl (fun t p _ ht => ?_) fun t p u hp' hu ht => ?_
  · unfold connectNode
    split
    · exact scalar_ok _
    · refine scalar_bind (Rows.scalar_predecessor _ _ _) fun found hfound => ?_
      split
      · exact scalar_ok _
      · exact scalar_bind (scalar_toKey (h _ (ht ▸ Rows.mem_of_predecessor hfound))) fun _ _ => scalar_ok _
  · exact (connectNode_moves hu (ht ▸ mem p hp')).2.trans ht

theorem scalar_chainAll (cfg : BuildConfig) {s : State} (h : ∀ n ∈ s.nodes, Succeeds n.name.toKey) :
    Scalar (chainAll cfg s) := by
  refine scalar_foldlM (P := fun _ => True) trivial (fun t n hn _ => ?_) fun _ _ _ _ _ _ => trivial
  refine scalar_bind (scalar_toKey (h n hn)) fun _ _ => ?_
  split
  · exact scalar_ok _
  · refine scalar_bind (Rows.scalar_successor _ _ _ _) fun found _ => ?_
    split
    · exact scalar_ok _
    · exact scalar_ok _

/-- nodes whose names are no lists and no objects are repaired without asking for a scalar in vain -/
theorem scalar_mend (cfg : BuildConfig) {s : State} (h : ∀ n ∈ s.nodes, Succeeds n.name.toKey) :
    Scalar (mend cfg s) := by
  refine scalar_bind (scalar_reconvergeAll cfg h) fun t ht => ?_
  have hnames := moves_forall (reconvergeAll_moves ht) (fun _ name _ _ => ⟨.text name, rfl⟩) h
  refine scalar_bind (scalar_connectAll cfg hnames) fun u hu => ?_
  exact scalar_chainAll cfg ((connectAll_moves hu).2 ▸ hnames)

/-! ## The whole repair -/

/-- **A repair of nodes with texts for names is not given up.** -/
theorem repair_mends {cfg : BuildConfig} {fields : Fields} {items : List Value} {r : Repaired}
    (h : repair cfg (.object fields) = .ok r) (hn : Value.field "nodes" fields = .list items)
    (htexts : ∀ n ∈ items.filterMap Node.ofValue?, ∃ s, n.name = .text s) :
    ∃ start s, canonicalize fields (items.filterMap Node.ofValue?) = .ok start ∧ mend cfg start = .ok s ∧
      r = ⟨.object (written fields s), s.fixes, s.trace⟩ := by
  obtain ⟨start, hstart, ⟨s, hs, hr⟩ | ⟨kind, hk, -⟩⟩ := repair_eq_ok h hn
  · exact ⟨start, s, hstart, hs, hr⟩
  · obtain ⟨c, -, hnodes, -⟩ := canonicalize_connections hstart
    have hnames : ∀ n ∈ start.nodes, Succeeds n.name.toKey := by
      intro n hn
      obtain ⟨name, hname⟩ := htexts n (hnodes ▸ hn)
      exact ⟨.text name, by rw [hname, Value.toKey_text]⟩
    exact absurd hk (scalar_mend cfg hnames kind)

end Repair

end WorkflowGraph
