import WorkflowGraph.Proofs.Repair.Ends
import WorkflowGraph.Proofs.Repair.Stranded
import WorkflowGraph.Proofs.Synthesis.Closed
/-
Repairs of documents that were laid out. When all branches of a plan owe an answer, three of the four steps of a repair
find nothing to do: no edge leads to a trigger, every other node is entered, and a node that nothing follows is the
rightmost one of its branch, on a row that no other branch comes near. The routes of a switch run together as well; but a
walk along a route stops at a loop node, whatever edges leave it, and so routes that begin with loop nodes are taken for
open ones and joined once more.

- `Closed.le_of_end`: what nothing follows is the rightmost node of its branch.
- `repair_laidOut`: when a repair leaves the document of a plan alone.
- `repair_joins_again`: a plan whose document it changes.
-/
namespace WorkflowGraph

/-- the node stands at whole numbers that doubles hold, and so they hold its distances to other such nodes -/
def Node.inReach (n : Node) : Bool :=
  match n.get "position" with
  | .list [.int x, .int y] =>
    x.natAbs ≤ 2 ^ (Double.significantBits - 1) && y.natAbs ≤ 2 ^ (Double.significantBits - 1)
  | _ => false

namespace PlacedNode

theorem inReach_toNode {n : PlacedNode} (h : n.toNode.inReach = true) :
    n.x.natAbs ≤ 2 ^ (Double.significantBits - 1) ∧ n.y.natAbs ≤ 2 ^ (Double.significantBits - 1) := by
  rw [Node.inReach, position_toNode] at h
  simpa using h

theorem exists_place {n : PlacedNode} (h : n.toNode.inReach = true) :
    ∃ p, n.toNode.place = .ok p ∧ Rows.Exact p n.x n.y := by
  obtain ⟨hx, hy⟩ := inReach_toNode h
  have hbits : 2 ^ (Double.significantBits - 1) ≤ 2 ^ Double.significantBits := by decide
  exact Rows.exists_place n.position_toNode (hx.trans hbits) (hy.trans hbits)

end PlacedNode

namespace Canvas

open Repair

variable {cfg : BuildConfig} {gap : Int} {c : Canvas}

/-! ## Edges and rows of a layout -/

/-- how far right the node of a name stands -/
def xOf (c : Canvas) (name : String) : Int := ((c.nodes.find? fun n => n.name = name).map (·.x)).getD 0

theorem Sound.xOf_name (h : Sound c) {n : PlacedNode} (hn : n ∈ c.nodes) : c.xOf n.name = n.x := by
  unfold xOf
  cases hfind : c.nodes.find? fun m => m.name = n.name with
  | none => exact absurd (decide_eq_true rfl) (List.find?_eq_none.1 hfind n hn)
  | some m =>
    have hname : m.name = n.name := by simpa using List.find?_some hfind
    rw [h.eq_of_name (List.mem_of_find?_eq_some hfind) hn hname]
    rfl

/-- edges lead to the right -/
theorem Ordered.onwards (h : Ordered cfg c) (hsound : Sound c) (hx : 0 < cfg.spacingX) :
    Onwards c.connections c.xOf := by
  intro a b hhead
  obtain ⟨n, hn, m, hm, rfl, rfl, -, hright, -⟩ := h.edges a b (Connections.joins_of_headAt hhead)
  rw [hsound.xOf_name hn, hsound.xOf_name hm]
  exact hright hx

/-- edges lead to nodes -/
theorem Ordered.known (h : Ordered cfg c) {a b : String} {i : Nat} (hhead : c.connections.headAt a i = some b) :
    Known (c.nodes.map PlacedNode.toNode) b := by
  obtain ⟨-, -, m, hm, -, rfl, -⟩ := h.edges a b (Connections.joins_of_headAt hhead)
  exact ⟨m.toNode, List.mem_map_of_mem hm, m.name_toNode⟩

/-- no edge leads to a trigger -/
theorem Ordered.free (h : Ordered cfg c) (hsound : Sound c)
    (hdefault : Catalog.isTriggerType cfg.defaultNodeType = false) {a b : String}
    (hjoins : c.connections.Joins (.text a) b) :
    ∀ n ∈ c.nodes.map PlacedNode.toNode, n.isTrigger = true → n.name ≠ .text b := by
  intro n hn htrigger hname
  obtain ⟨k, hk, rfl⟩ := List.mem_map.1 hn
  obtain ⟨-, -, m, hm, -, rfl, -, -, hinner⟩ := h.edges a b hjoins
  rw [k.name_toNode, Value.text.injEq] at hname
  cases hsound.eq_of_name hk hm hname
  rw [k.isTrigger_toNode, hinner hdefault] at htrigger
  cases htrigger

/-- **What nothing follows is the rightmost node of its branch.** -/
theorem Closed.le_of_end (h : Closed gap c) (hordered : Ordered cfg c) (hx : 0 < cfg.spacingX) {n m : PlacedNode}
    (hn : n ∈ c.nodes) (hend : c.headAt n.name 0 = none) (hm : m ∈ c.nodes) (hbranch : m.branch = n.branch) :
    m.x ≤ n.x := by
  have hfinite : {k | k ∈ c.nodes ∧ k.branch = n.branch}.Finite :=
    (List.finite_toSet c.nodes).subset fun k hk => hk.1
  obtain ⟨last, ⟨hlast, hsame⟩, hmax⟩ := Set.exists_max_image _ (fun k : PlacedNode => k.x) hfinite ⟨n, hn, rfl⟩
  -- an edge from the rightmost node would lead further right
  have hlastEnd : c.headAt last.name 0 = none := by
    cases hhead : c.headAt last.name 0 with
    | none => rfl
    | some b =>
      obtain ⟨n', hn', m', hm', hname, -, hbranch', hright, -⟩ :=
        hordered.edges _ _ (Connections.joins_of_headAt hhead)
      cases h.sound.eq_of_name hn' hlast hname
      exact absurd (hmax m' ⟨hm', hbranch'.symm.trans hsame⟩) (not_le.2 (hright hx))
  cases h.single last hlast n hn hsame hlastEnd hend
  exact hmax m ⟨hm, hbranch⟩

/-! ## What a repair finds -/

/-- a layout as a repair takes it up -/
def start (c : Canvas) : Repair.State := ⟨c.nodes.map PlacedNode.toNode, c.connections, 0, []⟩

/-- every node needs no edge or is entered -/
theorem Ordered.fed (h : Ordered cfg c) (hkeyed : c.connections.Keyed) : ∀ n ∈ c.start.nodes, Fed cfg n c.start := by
  intro n hn
  obtain ⟨m, hm, rfl⟩ := List.mem_map.1 hn
  rcases h.entered m hm with htrigger | hentered
  · exact Or.inl (m.isTrigger_toNode.trans htrigger)
  · refine Or.inr (Or.inl ?_)
    rw [isTarget, m.name_toNode]
    exact hkeyed.isTarget_iff_joins.2 hentered

/-- a node leads on, or has no neighbour that it could lead to -/
theorem Closed.led (h : Closed gap c) (hordered : Ordered cfg c) (hx : 0 < cfg.spacingX) (hdx : 0 ≤ cfg.rowMinDx)
    (hdx' : cfg.rowMinDx.natAbs ≤ 2 ^ Double.significantBits) (hgap : cfg.rowTolerance < gap)
    (hreach : ∀ n ∈ c.start.nodes, n.inReach = true) :
    ∀ n ∈ c.start.nodes, Led cfg (c.start.nodes.filter fun m => !m.isTrigger) n c.start := by
  intro _ hlisted
  have hreachable := hreach _ hlisted
  obtain ⟨n, hn, rfl⟩ := List.mem_map.1 hlisted
  cases hend : c.headAt n.name 0 with
  | some b =>
    refine Or.inr (Or.inl fun key hkey => ?_)
    rw [n.name_toNode, Value.toKey_text] at hkey
    obtain ⟨e, he, -⟩ := Connections.mem_portAt_of_headAt hend
    rw [← Except.ok.inj hkey]
    exact Connections.hasOutgoing_of_mem_portAt he
  | none =>
    obtain ⟨origin, horigin, hexact⟩ := PlacedNode.exists_place hreachable
    obtain ⟨least, hleast, hunits⟩ := Numeric.exists_toDouble hdx'
    refine Or.inr (Or.inr (Rows.successor_eq_none horigin hleast fun _ hcandidate _ => ?_))
    have hlisted' := (List.mem_filter.1 hcandidate).1
    have hreachable' := hreach _ hlisted'
    obtain ⟨m, hm, rfl⟩ := List.mem_map.1 hlisted'
    obtain ⟨place, hplace, hexact'⟩ := PlacedNode.exists_place hreachable'
    refine ⟨place, hplace, ?_⟩
    by_cases hbranch : m.branch = n.branch
    · have hle := h.le_of_end hordered hx hn hend hm hbranch
      exact Or.inl (Rows.le_add_of_exact hexact hexact' hle hunits (Int.mul_nonneg hdx (Int.natCast_nonneg _)))
    · refine Or.inr (Rows.sameRow_of_exact hexact hexact' ?_ ?_)
      · have hbits : 2 ^ Double.significantBits = 2 * 2 ^ (Double.significantBits - 1) := by decide
        have hy := (PlacedNode.inReach_toNode hreachable).2
        have hy' := (PlacedNode.inReach_toNode hreachable').2
        omega
      · have hapart := h.apart n hn m hm (Ne.symm hbranch)
        omega

/-- **A layout leaves nothing but switches and outputs to see to.** -/
theorem Ordered.tended (h : Ordered cfg c) (hsound : Sound c)
    (hdefault : Catalog.isTriggerType cfg.defaultNodeType = false) : Tended cfg c.start where
  named := hsound.named
  canonical := hsound.canonical
  simple := hsound.simple
  free _ _ hjoins := h.free hsound hdefault hjoins
  fed := h.fed hsound.canonical.toKeyed

end Canvas

namespace Repair

open Canvas

/-! ## Switches -/

/-- no branch of a switch of a document begins with a loop node -/
def Straight (document : Value) : Prop :=
  ∀ fields c, document = .object fields → Connections.load (Value.field "connections" fields) = .ok c →
    ∀ sw ∈ Document.nodesOf (Value.field "nodes" fields), sw.isSwitch = true → ∀ source, sw.name = .text source →
      ∀ i name, c.headAt source i = some name →
        ∀ n ∈ Document.nodesOf (Value.field "nodes" fields), n.name = .text name → n.isLoop = false

/-- the branches of every switch of a layout have one end then -/
theorem settled_of_straight {cfg : BuildConfig} {gap : Int} {document : Fields} {c : Canvas}
    (hshows : Synthesis.Shows document c) (h : Closed gap c) (hordered : Ordered cfg c) (hx : 0 < cfg.spacingX)
    (hstraight : Straight (.object document)) : Settled (.object document) := by
  rintro _ d ⟨⟩ hload
  cases hshows.load.symm.trans hload
  intro sw hsw hswitch key hkey
  have hrun := hstraight document c.connections rfl hload sw hsw hswitch
  rw [hshows.nodesOf] at hsw hrun ⊢
  obtain ⟨n, hn, rfl⟩ := List.mem_map.1 hsw
  rw [n.name_toNode, Value.toKey_text] at hkey
  rw [← Except.ok.inj hkey]
  refine length_openEnds_le_one (hordered.onwards h.sound hx) (fun _ _ _ => hordered.known) (h.joined n.name) ?_
  intro i t m hhead hm
  obtain ⟨hmem, hname⟩ := Document.named_of_get?_byName hm
  exact hrun n.name n.name_toNode i t hhead m hmem hname

/-! ## Documents of plans -/

/-- **When a repair leaves the document of a plan alone** whose branches all owe an answer: exactly when no switch has
two open branch ends and no output is left to chain. No switch has two when no route begins with a loop node, and no
output is left when doubles hold all coordinates. -/
theorem repair_laidOut {sources : Identifiers} {p : Plan} {built : Built} {r : Repaired}
    (howes : ∀ b ∈ p.branches, Synthesis.owesResponse b = true)
    (hb : Synthesis.build .standard sources p = .ok built)
    (hr : repair .standard (.object built.document) = .ok r) :
    ((r.fixes = 0 ∧ r.document = .object built.document) ↔
        Settled (.object built.document) ∧ Continued .standard (.object built.document)) ∧
      (Straight (.object built.document) → Settled (.object built.document)) ∧
      ((∀ n ∈ Document.nodesOf (Value.field "nodes" built.document), n.inReach = true) →
        Continued .standard (.object built.document)) := by
  obtain ⟨sources', hshows⟩ := Synthesis.build_shows hb
  have hordered := Synthesis.ordered_lay .standard sources' p
  have hclosed : Closed 200 (Synthesis.lay .standard sources' p) :=
    Synthesis.lay_closed (by decide) (by decide) (by decide) (by decide) sources' howes
  have hx : 0 < BuildConfig.standard.spacingX := by decide
  have htended := hordered.tended hclosed.sound (by decide +kernel)
  refine ⟨htended.repair_iff hshows.toHolds hr, settled_of_straight hshows hclosed hordered hx, fun hreach => ?_⟩
  rw [hshows.nodesOf] at hreach
  have hled := hclosed.led hordered hx (by decide) (by decide) (by decide) hreach
  exact (continued_iff (s := (Synthesis.lay .standard sources' p).start) hshows.toHolds hshows.load).2 hled

/-! ## A plan with loops behind a switch -/

/-- a step that goes through a list in batches -/
def loopStep (name : String) : Requirement :=
  { Synthesis.plainStep name with type := Catalog.fullTag "splitInBatches" }

/-- a branch that owes an answer, with a switch both of whose routes begin with a loop -/
def loopsPlan : Plan where
  workflowName := "Loops"
  branches := [⟨1, "Loops", "webhook",
    [{ Synthesis.plainStep "Route" with isSwitch := true }, loopStep "Batch A", loopStep "Batch B",
      { Synthesis.plainStep "Merge responses" with isMerge := true }]⟩]
  complexity := none
  concerns := []

theorem repairs_loopsPlan :
    ∃ built r, Synthesis.build .standard Synthesis.ordersSources loopsPlan = .ok built ∧
      repair .standard (.object built.document) = .ok r ∧
      (∀ n ∈ Document.nodesOf (Value.field "nodes" built.document), n.inReach = true) ∧ r.fixes = 3 ∧
      nodeCount (.object built.document) < nodeCount r.document := by
  have hruns : ((Synthesis.build .standard Synthesis.ordersSources loopsPlan).toOption.any fun built =>
      (repair .standard (.object built.document)).toOption.any fun r =>
        (Document.nodesOf (Value.field "nodes" built.document)).all Node.inReach && r.fixes == 3 &&
          decide (nodeCount (.object built.document) < nodeCount r.document)) = true := by
    simp only [repair, mend, connectAll_eq]
    decide +kernel
  obtain ⟨built, hbuilt, hrepaired⟩ := exists_ok_of_any hruns
  obtain ⟨r, hr, hmore⟩ := exists_ok_of_any hrepaired
  rw [Bool.and_eq_true, Bool.and_eq_true, List.all_eq_true, beq_iff_eq, decide_eq_true_iff] at hmore
  exact ⟨built, r, hbuilt, hr, hmore.1.1, hmore.1.2, hmore.2⟩

/-- the routes that the layout has joined are joined once more -/
theorem repair_joins_again :
    (∀ b ∈ loopsPlan.branches, Synthesis.owesResponse b = true) ∧
      ∃ built r, Synthesis.build .standard Synthesis.ordersSources loopsPlan = .ok built ∧
        repair .standard (.object built.document) = .ok r ∧ r.fixes ≠ 0 ∧ r.document ≠ .object built.document := by
  obtain ⟨built, r, hbuilt, hr, -, hfixes, hmore⟩ := repairs_loopsPlan
  refine ⟨by decide, built, r, hbuilt, hr, by omega, fun hsame => ?_⟩
  rw [hsame] at hmore
  exact Nat.lt_irrefl _ hmore

/-- so two of its routes are open, and not all of them begin with other nodes than loops -/
theorem repair_laidOut_loopsPlan :
    (∀ b ∈ loopsPlan.branches, Synthesis.owesResponse b = true) ∧
      ∃ built r, Synthesis.build .standard Synthesis.ordersSources loopsPlan = .ok built ∧
        repair .standard (.object built.document) = .ok r ∧
        ((r.fixes = 0 ∧ r.document = .object built.document) ↔
          Settled (.object built.document) ∧ Continued .standard (.object built.document)) ∧
        Continued .standard (.object built.document) ∧ ¬ Straight (.object built.document) := by
  have howes : ∀ b ∈ loopsPlan.branches, Synthesis.owesResponse b = true := by decide
  obtain ⟨built, r, hbuilt, hr, hreach, hfixes, -⟩ := repairs_loopsPlan
  obtain ⟨hiff, hstraight, hcontinued⟩ := repair_laidOut howes hbuilt hr
  refine ⟨howes, built, r, hbuilt, hr, hiff, hcontinued hreach, fun h => ?_⟩
  have hzero := (hiff.2 ⟨hstraight h, hcontinued hreach⟩).1
  omega

end Repair

end WorkflowGraph
