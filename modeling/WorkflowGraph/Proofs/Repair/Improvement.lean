import WorkflowGraph.Proofs.Repair.Growth
import WorkflowGraph.Proofs.Validation.Concerns
/-
What a repair does to the report. Edges into triggers and outputs that lead nowhere are gone, and whatever else is
wrong with the structure was wrong before, switches apart: a repair adds no node without an edge to it, no edge with an
unknown end, and takes no edge away that leads to anything but a trigger.

- `mended_of_mend`: nodes and connections after a whole repair.
- `led_of_chainAll`: after the last step every output leads somewhere, or nowhere it could.
- `repair_improves`: the reports before and after.
-/
namespace WorkflowGraph

namespace Repair

/-! ## The structure after a repair -/

/-- nodes and connections after a repair, against those before -/
structure Mended (nodes : List Node) (c : Connections) (s : State) : Prop where
  named : WellNamed s.nodes
  canonical : s.connections.Canonical
  simple : s.connections.Simple
  kept : nodes ⊆ s.nodes
  /-- a new node joins branches, and an edge leads to it -/
  added : ∀ n ∈ s.nodes, n ∈ nodes ∨ n.get "type" = .text "n8n-nodes-base.merge" ∧
    ∃ name, n.name = .text name ∧ Reached s.nodes s.connections name
  /-- a new edge leads from a node to a node -/
  edges : ∀ a b, s.connections.Joins (.text a) b → c.Joins (.text a) b ∨ (Known s.nodes a ∧ Known s.nodes b)
  /-- no edge leads to a trigger -/
  free : ∀ a b, s.connections.Joins (.text a) b → ∀ n ∈ s.nodes, n.isTrigger = true → n.name ≠ .text b
  /-- the other edges are still there -/
  joins : ∀ a b, c.Joins (.text a) b → b ∉ triggerNames nodes → s.connections.Joins (.text a) b
  empty : nodes = [] → s.nodes = []

/-- an edge that the first step leaves was there before and leads to no trigger -/
theorem joins_filter {c : Connections} {nodes : List Node} {a : Key} {b : String} :
    (c.mapPorts (·.filter (sparesTriggers nodes))).Joins a b → c.Joins a b ∧ b ∉ triggerNames nodes := by
  rintro ⟨portType, i, e, he, rfl⟩
  rw [Connections.portAt_mapPorts c rfl, List.mem_filter] at he
  exact ⟨⟨portType, i, e, he.1, rfl⟩, by simpa [sparesTriggers] using he.2⟩

theorem mended_of_mend {cfg : BuildConfig} {fields : Fields} {nodes : List Node} {start s : State}
    (hstart : canonicalize fields nodes = .ok start) (hs : mend cfg start = .ok s) (hw : WellNamed nodes) :
    ∃ c, Connections.load (Value.field "connections" fields) = .ok c ∧ Mended nodes c s := by
  obtain ⟨c, hload, rfl, hconnections, -⟩ := canonicalize_connections hstart
  obtain ⟨hcanonical, hsimple⟩ := Connections.load_form hload
  have hmoves := mend_moves hs
  obtain ⟨added, hnodes, hmerges⟩ := moves_merges hmoves
  have hstartCanonical : start.connections.Canonical := by
    rw [hconnections]
    exact hcanonical.mapPorts fun _ _ hp e he => hp e (List.mem_of_mem_filter he)
  have hstartSimple : start.connections.Simple := by
    rw [hconnections]
    exact hsimple.mapPorts fun _ _ hp => hp.filter _
  have hgrown := moves_grown hmoves hw hstartCanonical hstartSimple
  have hextends : c.Extends (sparesTriggers start.nodes) s.connections := by
    refine moves_extends hmoves ?_
    rw [hconnections]
    exact Connections.extends_filter _ _
  have hnamed := wellNamed_of_moves hmoves hw
  refine ⟨c, hload, {
    named := hnamed
    canonical := hgrown.canonical
    simple := hgrown.simple
    kept := by rw [hnodes]; exact List.subset_append_left _ _
    added := ?_
    edges := ?_
    free := ?_
    joins := ?_
    empty := hgrown.empty }⟩
  · intro n hn
    rcases hgrown.reached n hn with hold | hreached
    · exact Or.inl hold
    · rw [hnodes] at hn
      exact (List.mem_append.1 hn).imp_right fun hnew => ⟨hmerges.type n hnew, hreached⟩
  · intro a b hjoins
    rcases hgrown.edges a b hjoins with hold | ⟨ha, n, hn, -, hb⟩
    · rw [hconnections] at hold
      exact Or.inl (joins_filter hold).1
    · exact Or.inr ⟨ha, n, hn, hb⟩
  · intro a b hjoins n hn htrigger hname
    rcases hgrown.edges a b hjoins with hold | ⟨-, m, hm, hopen, hb⟩
    · -- the first step has dropped the edges to triggers, and a merge node is none
      rw [hconnections] at hold
      rw [hnodes] at hn
      rcases List.mem_append.1 hn with hn | hn
      · exact (joins_filter hold).2 (mem_triggerNames.2 ⟨n, hn, htrigger, hname⟩)
      · rw [isTrigger_of_merge (hmerges.type n hn)] at htrigger
        cases htrigger
    · rw [hnamed.eq_of_name hn hm (hname.trans hb.symm), hopen] at htrigger
      cases htrigger
  · intro a b hjoins hb
    refine hextends.joins hjoins ?_
    rintro e rfl
    simpa [sparesTriggers] using hb

/-! ## Concerns -/

theorem missing_of_merge {n : Node} (h : n.get "type" = .text "n8n-nodes-base.merge") : Parameters.missing n = [] := by
  have hlookup : Parameters.validated.lookup n.shortType = none := by
    unfold Node.shortType Node.tag
    rw [h]
    decide +kernel
  simp [Parameters.missing, hlookup]

/-- an edge that leads to a node that is no trigger is still there -/
theorem Mended.reached {nodes : List Node} {c : Connections} {s : State} (h : Mended nodes c s) (hw : WellNamed nodes)
    {n : Node} (hn : n ∈ nodes) (hopen : n.isTrigger = false) {name : String} (hname : n.name = .text name)
    (hr : Reached nodes c name) : Reached s.nodes s.connections name := by
  refine hr.mono h.kept fun a hjoins => h.joins a name hjoins fun hmem => ?_
  obtain ⟨m, hm, htrigger, hm'⟩ := mem_triggerNames.1 hmem
  rw [hw.eq_of_name hm hn (hm'.trans hname.symm), hopen] at htrigger
  cases htrigger

/-- what is wrong with the structure after a repair was wrong before -/
theorem Mended.concern {nodes : List Node} {c : Connections} {s : State} (h : Mended nodes c s) (hw : WellNamed nodes)
    {k : IssueCategory} {v : Value} (hc : Validation.Concern s.nodes s.connections k v) :
    k ≠ .triggerIncoming ∧ Validation.Concern nodes c k v := by
  have hne : s.nodes ≠ [] → nodes ≠ [] := fun hne hnil => hne (h.empty hnil)
  cases hc with
  | empty hnil => exact ⟨by decide, .empty (List.eq_nil_of_subset_nil (hnil ▸ h.kept))⟩
  | trigger hs hnone => exact ⟨by decide, .trigger (hne hs) fun n hn => hnone n (h.kept hn)⟩
  | @dangling source target ref hs hj hr hunknown =>
    refine ⟨by decide, ?_⟩
    rcases h.edges source target hj with hold | ⟨hsource, htarget⟩
    · exact .dangling (hne hs) hold hr fun hknown => hunknown (hknown.mono h.kept)
    · rcases hr with rfl | rfl
      · exact absurd hsource hunknown
      · exact absurd htarget hunknown
  | @incoming n name hn ht hname hreached =>
    obtain ⟨-, source, -, hjoins⟩ := hreached
    exact absurd hname (h.free source name hjoins n hn ht)
  | @disconnected n name hn ht hname hnot =>
    refine ⟨by decide, ?_⟩
    rcases h.added n hn with hold | ⟨-, m, hm, hreached⟩
    · exact .disconnected hold ht hname fun hr => hnot (h.reached hw hold ht hname hr)
    · cases hname.symm.trans hm
      exact absurd hreached hnot
  | @parameters n hn hmissing =>
    refine ⟨by decide, ?_⟩
    rcases h.added n hn with hold | ⟨htype, -⟩
    · exact .parameters hold hmissing
    · exact absurd (missing_of_merge htype) hmissing

/-! ## Outputs -/

/-- the output of a node leads somewhere, needs not to, or has nowhere to lead -/
def Led (cfg : BuildConfig) (candidates : List Node) (n : Node) (s : State) : Prop :=
  n.isConcluding = true ∨ (∀ key, n.name.toKey = .ok key → s.connections.hasOutgoing key = true) ∨
    Rows.successor id (.whole cfg.rowTolerance) (.whole cfg.rowMinDx) n candidates = .ok none

/-- chaining a node sees to its output -/
theorem led_of_chainNode {cfg : BuildConfig} {candidates : List Node} {s t : State} {n : Node}
    (h : chainNode cfg candidates s n = .ok t) : Led cfg candidates n t := by
  obtain ⟨source, hsource, hcase⟩ := chains_of_eq_ok h
  have hkey : ∀ {key}, n.name.toKey = .ok key → key = source := fun hk => Except.ok.inj (hk.symm.trans hsource)
  cases hcase with
  | led hled => exact hled.imp_right fun hout => Or.inl fun key hk => hkey hk ▸ hout
  | unresolved hnone => exact Or.inr (Or.inr hnone)
  | chained right hclosed hout hright detail =>
    refine Or.inr (Or.inl fun key hk => ?_)
    rw [hkey hk]
    exact (Connections.hasOutgoing_connect _ _ _ _ _).trans (by simp)

/-- chaining a node keeps the outputs of the others -/
theorem Led.chainNode {cfg : BuildConfig} {candidates : List Node} {s t : State} {n m : Node}
    (h : Led cfg candidates m s) (hn : chainNode cfg candidates s n = .ok t) : Led cfg candidates m t := by
  obtain ⟨source, -, hcase⟩ := chains_of_eq_ok hn
  cases hcase with
  | led hled => exact h
  | unresolved hnone => exact h
  | chained right hclosed hout hright detail =>
    refine h.imp_right (Or.imp_left fun hled key hk => ?_)
    exact (Connections.hasOutgoing_connect _ _ _ _ _).trans (by simp [hled key hk])

/-- **After the last step every output leads somewhere**, or needs not to, or has nowhere to lead. -/
theorem led_of_chainAll {cfg : BuildConfig} {s t : State} (h : chainAll cfg s = .ok t) :
    ∀ n ∈ t.nodes, Led cfg (t.nodes.filter fun m => !m.isTrigger) n t := by
  rw [(chainAll_moves h).2]
  exact foldlM_forall h (fun _ _ _ _ hstep => led_of_chainNode hstep) fun _ _ _ _ _ hstep hled => hled.chainNode hstep

/-! ## The report -/

/-- the last step of a repair sees to every output -/
theorem led_of_mend {cfg : BuildConfig} {s t : State} (h : mend cfg s = .ok t) :
    ∀ n ∈ t.nodes, Led cfg (t.nodes.filter fun m => !m.isTrigger) n t := by
  obtain ⟨u, -, h⟩ := bind_eq_ok.1 h
  obtain ⟨v, -, h⟩ := bind_eq_ok.1 h
  exact led_of_chainAll h

theorem Led.not_open {cfg : BuildConfig} {candidates : List Node} {n follower : Node} {s : State} {key : Key}
    (h : Led cfg candidates n s) (hopen : n.isConcluding = false) (hkey : n.name.toKey = .ok key)
    (hfollower : Rows.successor id (.whole cfg.rowTolerance) (.whole cfg.rowMinDx) n candidates = .ok (some follower)) :
    s.connections.hasOutgoing key = true := by
  rcases h with hclosed | hled | hnone
  · rw [hopen] at hclosed
    cases hclosed
  · exact hled key hkey
  · cases hnone.symm.trans hfollower

/-- what is read from a repaired document -/
theorem read_written (fields : Fields) {nodes : List Node} {c : Connections} {s : State} (h : Mended nodes c s) :
    Document.nodes (written fields s) = .ok (Document.nodesOf (Value.field "nodes" (written fields s))) ∧
      Document.nodesOf (Value.field "nodes" (written fields s)) = s.nodes ∧
      Connections.load (Value.field "connections" (written fields s)) = .ok s.connections := by
  have hwritten := holds_written fields s
  refine ⟨Document.nodes_of_list hwritten.nodes_field, hwritten.nodesOf, ?_⟩
  rw [hwritten.connections_field]
  exact Connections.load_toValue_simple h.canonical h.simple

/-- an issue of a repaired document was a concern before, switches and outputs apart -/
theorem concern_of_written {cfg : BuildConfig} {fields : Fields} {nodes : List Node} {c : Connections} {s : State}
    {after : Report} (h : Mended nodes c s) (hw : WellNamed nodes)
    (hafter : validate cfg (.object (written fields s)) = .ok after) {i : Issue} (hi : i ∈ after.issues)
    (hschema : i.category ≠ .schema) (hswitch : i.category ≠ .switch) (hout : i.category ≠ .noOutgoing) :
    i.category ≠ .triggerIncoming ∧ Validation.Concern nodes c i.category i.node := by
  obtain ⟨hlist, hnodes, hload⟩ := read_written fields h
  have hconcern := Validation.concern_of_issue hafter hlist hload (hnodes ▸ h.named) hi hschema hswitch hout
  rw [hnodes] at hconcern
  exact h.concern hw hconcern

/-- no output of a repaired document is reported -/
theorem led_of_written {cfg : BuildConfig} {fields : Fields} {nodes : List Node} {c : Connections} {start s : State}
    {after : Report} (h : Mended nodes c s) (hs : mend cfg start = .ok s)
    (hafter : validate cfg (.object (written fields s)) = .ok after) :
    ∀ i ∈ after.issues, i.category ≠ .noOutgoing := by
  intro i hi hcategory
  obtain ⟨-, hnodes, hload⟩ := read_written fields h
  obtain ⟨n, hmem, hopen, ⟨key, hkey, hout⟩, follower, hfollower⟩ :=
    Validation.open_of_issue hafter hload hi hcategory
  rw [hnodes] at hmem hfollower
  rw [(led_of_mend hs n hmem).not_open hopen hkey hfollower] at hout
  cases hout

/-- the categories of issues that concern the structure, switches and what a repair removes apart -/
def structural : List IssueCategory := [.empty, .trigger, .names, .dangling, .disconnected, .parameters]

/-- what a structural issue of a repaired document is about, one of the same category was about before -/
theorem structural_of_written {cfg : BuildConfig} {fields : Fields} {items : List Value} {c : Connections} {s : State}
    {before after : Report} (hn : Value.field "nodes" fields = .list items)
    (hw : WellNamed (items.filterMap Node.ofValue?)) (h : Mended (items.filterMap Node.ofValue?) c s)
    (hload : Connections.load (Value.field "connections" fields) = .ok c)
    (hbefore : validate cfg (.object fields) = .ok before)
    (hafter : validate cfg (.object (written fields s)) = .ok after) :
    ∀ i ∈ after.issues, i.category ∈ structural → ∃ j ∈ before.issues, j.category = i.category ∧ j.node = i.node := by
  intro i hi hcategory
  have hkind : i.category ≠ .schema ∧ i.category ≠ .switch ∧ i.category ≠ .noOutgoing := by
    refine ⟨?_, ?_, ?_⟩ <;> rintro heq <;> simp [heq, structural] at hcategory
  have hnodes : Document.nodesOf (Value.field "nodes" fields) = items.filterMap Node.ofValue? := by
    rw [hn]
    rfl
  have hconcern := (concern_of_written h hw hafter hi hkind.1 hkind.2.1 hkind.2.2).2
  rw [← hnodes] at hconcern hw
  exact Validation.issue_of_concern hbefore (Document.nodes_of_list hn) hload hw hconcern

end Repair

end WorkflowGraph
