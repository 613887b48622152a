import WorkflowGraph.Proofs.Repair.Built
/-
Repairing a document again. What the first repair leaves is in normal form, has no edge into a trigger, no node that a
left neighbour could still feed and no output that could still be chained, so three of the four steps find nothing to
do. Only the switches may be joined once more: a branch that ends at a node whose edges lead back, or in a cycle, ends
there again although an edge into a merge node has been added to it, and so does one that ran into a new edge.

- `fed_of_connectAll`: after the third step every node is fed, or cannot be.
- `Tended.repair_iff`: where everything else is seen to, switches and outputs decide whether a repair changes anything.
- `repair_again_iff`: a second repair changes nothing exactly when no switch is left with two open branch ends.
- `repair_again_batches`: a document that a second repair changes once more.
-/
namespace WorkflowGraph

namespace Repair

/-! ## The first step -/

/-- without an edge to a trigger there are none to drop -/
theorem foldl_dropIncoming_eq_self {nodes : List Node} {s : State}
    (h : ∀ n ∈ nodes, n.isTrigger = true → ∀ name, n.name = .text name → s.connections.countEdgesTo name = 0) :
    nodes.foldl dropIncoming s = s := by
  induction nodes with
  | nil => rfl
  | cons n nodes ih =>
    rw [List.forall_mem_cons] at h
    have hsame : dropIncoming s n = s := by
      unfold dropIncoming
      split
      · rename_i name htrigger hname
        simp only [h.1 htrigger name hname, if_true]
      · rfl
    rw [List.foldl_cons, hsame, ih h.2]

/-! ## Switches -/

/-- no switch has two open branch ends -/
def Reconverged (nodes : List Node) (c : Connections) : Prop :=
  ∀ sw ∈ nodes, sw.isSwitch = true → ∀ source, sw.name.toKey = .ok source → (openEnds nodes c source).length ≤ 1

/-- a switch is left alone when it has less than two open ends, and otherwise something is fixed -/
theorem reconverge_cases {cfg : BuildConfig} {s t : State} {registry registry' : NameRegistry} {sw : Node}
    {source : Key} (h : reconverge cfg (s, registry) sw = .ok (t, registry')) (hsource : sw.name.toKey = .ok source) :
    ((openEnds s.nodes s.connections source).length ≤ 1 ∧ t.fixes = s.fixes ∧ t.nodes = s.nodes ∧
        t.connections = s.connections) ∨
      1 < (openEnds s.nodes s.connections source).length ∧ s.fixes < t.fixes := by
  obtain ⟨source', hsource', hcase⟩ := reconverges_of_eq_ok h
  cases hsource.symm.trans hsource'
  cases hcase with
  | alone detail hfew => exact Or.inl ⟨hfew, rfl, rfl, rfl⟩
  | joined first others origin place right spacing detail hends hmany horigin hright hspacing hplace =>
    have hpos := List.length_pos_of_ne_nil hmany
    refine Or.inr ⟨by rw [hends, List.length_cons]; omega, ?_⟩
    simp only [State.fixed, State.note]
    omega

theorem reconverge_fixes_le {cfg : BuildConfig} {acc acc' : State × NameRegistry} {sw : Node}
    (h : reconverge cfg acc sw = .ok acc') : acc.1.fixes ≤ acc'.1.fixes := by
  obtain ⟨source, hsource, -⟩ := bind_eq_ok.1 h
  rcases reconverge_cases h hsource with ⟨-, hfixes, -⟩ | ⟨-, hfixes⟩
  · exact hfixes.ge
  · exact hfixes.le

/-- nothing is fixed exactly when all switches are left alone -/
theorem foldlM_reconverge_fixes {cfg : BuildConfig} {switches : List Node} {acc acc' : State × NameRegistry}
    (h : switches.foldlM (reconverge cfg) acc = .ok acc') :
    acc'.1.fixes = acc.1.fixes ↔ ∀ sw ∈ switches, ∀ source, sw.name.toKey = .ok source →
      (openEnds acc.1.nodes acc.1.connections source).length ≤ 1 := by
  induction switches generalizing acc with
  | nil =>
    cases h
    simp
  | cons sw switches ih =>
    rw [List.foldlM_cons] at h
    obtain ⟨mid, hmid, h⟩ := bind_eq_ok.1 h
    obtain ⟨source, hsource, -⟩ := bind_eq_ok.1 hmid
    have hhead : (∀ key, sw.name.toKey = .ok key → (openEnds acc.1.nodes acc.1.connections key).length ≤ 1) ↔
        (openEnds acc.1.nodes acc.1.connections source).length ≤ 1 := by
      simp [hsource]
    have hle : mid.1.fixes ≤ acc'.1.fixes :=
      foldlM_induction (P := fun u : State × NameRegistry => mid.1.fixes ≤ u.1.fixes) h (Nat.le_refl _)
        fun _ _ _ _ hstep hu => hu.trans (reconverge_fixes_le hstep)
    rw [List.forall_mem_cons, hhead]
    rcases reconverge_cases hmid hsource with ⟨hfew, hfixes, hnodes, hconnections⟩ | ⟨hmany, hfixes⟩
    · rw [← hfixes, ih h, hnodes, hconnections]
      simp [hfew]
    · constructor
      · intro heq
        omega
      · rintro ⟨hfew, -⟩
        omega

theorem reconvergeAll_fixes {cfg : BuildConfig} {s t : State} (h : reconvergeAll cfg s = .ok t) :
    t.fixes = s.fixes ↔ Reconverged s.nodes s.connections := by
  obtain ⟨keys, -, h⟩ := bind_eq_ok.1 h
  obtain ⟨⟨u, registry⟩, hrun, h⟩ := bind_eq_ok.1 h
  cases h
  rw [foldlM_reconverge_fixes hrun]
  simp only [List.mem_filter, and_imp, Reconverged]

/-! ## Nodes without an incoming edge -/

/-- a node needs no edge, or an edge leads to it, or there is no neighbour that one could come from -/
def Fed (cfg : BuildConfig) (n : Node) (s : State) : Prop :=
  n.isTrigger = true ∨ isTarget s.connections n = true ∨
    Rows.predecessor id (.whole cfg.rowTolerance) n s.nodes = .ok none

theorem isTarget_connect {c : Connections} {n : Node} (h : isTarget c n = true) (source : Key) (target : String)
    (index : Nat) : isTarget (c.connect source target index) n = true := by
  unfold isTarget at h ⊢
  split at h
  · exact Connections.isTarget_connect h source target index
  · cases h

theorem isTarget_connect_self (c : Connections) (source : Key) {n : Node} {name : String} (hn : n.name = .text name)
    (index : Nat) : isTarget (c.connect source n.name.toText index) n = true := by
  rw [isTarget, hn]
  exact Connections.isTarget_connect_self c source name index

/-- connecting a node sees to its incoming edge -/
theorem fed_of_connectNode {cfg : BuildConfig} {s t : State} {n : Node} {name : String} (hname : n.name = .text name)
    (h : connectNode cfg s n = .ok t) : Fed cfg n t := by
  cases connects_of_eq_ok h with
  | fed hfed => exact hfed.imp_right Or.inl
  | unresolved hnone detail => exact Or.inr (Or.inr hnone)
  | connected left key hopen htarget hleft hkey detail => exact Or.inr (Or.inl (isTarget_connect_self _ _ hname 0))

/-- connecting a node changes no node and keeps the incoming edges of the others -/
theorem Fed.connectNode {cfg : BuildConfig} {s t : State} {n m : Node} (h : Fed cfg m s)
    (hn : connectNode cfg s n = .ok t) : Fed cfg m t := by
  cases connects_of_eq_ok hn with
  | fed hfed => exact h
  | unresolved hnone detail => exact h
  | connected left key hopen htarget hleft hkey detail =>
    exact h.imp_right (Or.imp_left fun hm => isTarget_connect hm _ _ _)

/-- chaining an output does so too -/
theorem Fed.chainNode {cfg : BuildConfig} {candidates : List Node} {s t : State} {n m : Node} (h : Fed cfg m s)
    (hn : chainNode cfg candidates s n = .ok t) : Fed cfg m t := by
  obtain ⟨source, -, hcase⟩ := chains_of_eq_ok hn
  cases hcase with
  | led hled => exact h
  | unresolved hnone => exact h
  | chained right hclosed hout hright detail =>
    exact h.imp_right (Or.imp_left fun hm => isTarget_connect hm _ _ _)

/-- the nodes that are looked at from left to right are the nodes there are -/
theorem mem_placed_iff {nodes : List Node} {placed : List (Double × Node)} (h : withPlaces nodes = .ok placed)
    {n : Node} : (∃ p ∈ placed.mergeSort fun a b => !b.1.lt a.1, p.2 = n) ↔ n ∈ nodes := by
  simp only [List.mem_mergeSort]
  constructor
  · rintro ⟨p, hp, rfl⟩
    obtain ⟨m, hm, hmp⟩ := exists_of_mem_mapM h hp
    obtain ⟨place, -, rfl⟩ := map_eq_ok.1 hmp
    exact hm
  · intro hn
    obtain ⟨p, hp, hnp⟩ := exists_mem_of_mapM h hn
    obtain ⟨place, -, rfl⟩ := map_eq_ok.1 hnp
    exact ⟨_, hp, rfl⟩

/-- **After the third step every node is fed**, or needs not to be, or cannot be. -/
theorem fed_of_connectAll {cfg : BuildConfig} {s t : State} (h : connectAll cfg s = .ok t)
    (hw : ∀ n ∈ s.nodes, ∃ name, n.name = .text name) : ∀ n ∈ s.nodes, Fed cfg n t := by
  obtain ⟨placed, hplaced, h⟩ := bind_eq_ok.1 h
  have hall : ∀ p ∈ placed.mergeSort fun a b => !b.1.lt a.1, Fed cfg p.2 t := by
    refine foldlM_forall (Q := fun p : Double × Node => Fed cfg p.2) h (fun u p v hp hstep => ?_)
      fun _ _ _ _ _ hstep hfed => hfed.connectNode hstep
    obtain ⟨name, hname⟩ := hw p.2 ((mem_placed_iff hplaced).1 ⟨p, hp, rfl⟩)
    exact fed_of_connectNode hname hstep
  intro n hn
  obtain ⟨p, hp, rfl⟩ := (mem_placed_iff hplaced).2 hn
  exact hall p hp

theorem fed_of_mend {cfg : BuildConfig} {s t : State} (h : mend cfg s = .ok t) (hw : WellNamed s.nodes) :
    ∀ n ∈ t.nodes, Fed cfg n t := by
  obtain ⟨u, hu, h⟩ := bind_eq_ok.1 h
  obtain ⟨v, hv, h⟩ := bind_eq_ok.1 h
  have hnamed := wellNamed_of_moves (reconvergeAll_moves hu) hw
  have hfed := fed_of_connectAll hv fun n hn => (hnamed.texts n hn).imp fun _ hs => hs.1
  intro n hn
  rw [(chainAll_moves h).2, (connectAll_moves hv).2] at hn
  exact foldlM_induction (P := Fed cfg n) h (hfed n hn) fun _ _ _ _ hstep hn => hn.chainNode hstep

/-! ## Steps that find nothing to do -/

/-- nothing but the trace differs -/
structure Idle (s t : State) : Prop where
  nodes : t.nodes = s.nodes
  connections : t.connections = s.connections
  fixes : t.fixes = s.fixes

theorem Idle.refl (s : State) : Idle s s := ⟨rfl, rfl, rfl⟩

theorem Idle.trans {s t u : State} (h : Idle s t) (h' : Idle t u) : Idle s u :=
  ⟨h'.nodes.trans h.nodes, h'.connections.trans h.connections, h'.fixes.trans h.fixes⟩

theorem Fed.congr {cfg : BuildConfig} {n : Node} {s t : State} (h : Fed cfg n s) (hnodes : t.nodes = s.nodes)
    (hconnections : t.connections = s.connections) : Fed cfg n t := by
  unfold Fed
  rw [hnodes, hconnections]
  exact h

theorem Led.congr {cfg : BuildConfig} {candidates : List Node} {n : Node} {s t : State} (h : Led cfg candidates n s)
    (hconnections : t.connections = s.connections) : Led cfg candidates n t := by
  unfold Led
  rw [hconnections]
  exact h

theorem idle_connectNode {cfg : BuildConfig} {s t : State} {n : Node} (hfed : Fed cfg n s)
    (h : connectNode cfg s n = .ok t) : Idle s t := by
  cases connects_of_eq_ok h with
  | fed hfed => exact Idle.refl s
  | unresolved hnone detail => exact ⟨rfl, rfl, rfl⟩
  | connected left key hopen htarget hleft hkey detail =>
    rcases hfed with htrigger | htarget' | hnone
    · rw [hopen] at htrigger
      cases htrigger
    · rw [htarget] at htarget'
      cases htarget'
    · cases hnone.symm.trans hleft

theorem idle_connectAll {cfg : BuildConfig} {s t : State} (hfed : ∀ n ∈ s.nodes, Fed cfg n s)
    (h : connectAll cfg s = .ok t) : Idle s t := by
  obtain ⟨placed, hplaced, h⟩ := bind_eq_ok.1 h
  refine foldlM_induction (P := Idle s) h (Idle.refl s) fun u p v hp hstep hu => ?_
  have hn := (mem_placed_iff hplaced).1 ⟨p, hp, rfl⟩
  exact hu.trans (idle_connectNode ((hfed p.2 hn).congr hu.nodes hu.connections) hstep)

theorem idle_chainNode {cfg : BuildConfig} {candidates : List Node} {s t : State} {n : Node}
    (hled : Led cfg candidates n s) (h : chainNode cfg candidates s n = .ok t) : Idle s t := by
  obtain ⟨key, hkey, hcase⟩ := chains_of_eq_ok h
  cases hcase with
  | led hled => exact Idle.refl s
  | unresolved hnone => exact Idle.refl s
  | chained right hclosed hout hright detail =>
    rcases hled with hclosed' | hled | hnone
    · rw [hclosed] at hclosed'
      cases hclosed'
    · rw [hled key hkey] at hout
      cases hout
    · cases hnone.symm.trans hright

theorem idle_chainAll {cfg : BuildConfig} {s t : State}
    (hled : ∀ n ∈ s.nodes, Led cfg (s.nodes.filter fun m => !m.isTrigger) n s) (h : chainAll cfg s = .ok t) :
    Idle s t :=
  foldlM_induction (P := Idle s) h (Idle.refl s) fun _ n _ hn hstep hu =>
    hu.trans (idle_chainNode ((hled n hn).congr hu.connections) hstep)

/-- once nodes are fed, only open switches and outputs that could be chained are left to fix -/
theorem mend_fixes_iff {cfg : BuildConfig} {s t : State} (hfed : ∀ n ∈ s.nodes, Fed cfg n s)
    (h : mend cfg s = .ok t) :
    t.fixes = s.fixes ↔
      Reconverged s.nodes s.connections ∧ ∀ n ∈ s.nodes, Led cfg (s.nodes.filter fun m => !m.isTrigger) n s := by
  have hled := led_of_mend h
  have hall := moves_counted (mend_moves h)
  obtain ⟨u, hu, h⟩ := bind_eq_ok.1 h
  obtain ⟨v, hv, h⟩ := bind_eq_ok.1 h
  have hcounted := moves_counted (reconvergeAll_moves hu)
  have hlater := (moves_counted (connectAll_moves hv).1).trans (moves_counted (chainAll_moves h).1)
  have hle := hcounted.le
  have hle' := hlater.le
  rw [← reconvergeAll_fixes hu]
  constructor
  · intro heq
    refine ⟨by omega, fun n hn => ?_⟩
    rw [hall.nodes heq] at hled
    exact (hled n hn).congr (hall.connections heq).symm
  · rintro ⟨heq, hled⟩
    have hidle : Idle s u := ⟨hcounted.nodes heq, hcounted.connections heq, heq⟩
    have hconnect : Idle u v :=
      idle_connectAll (fun n hn => (hfed n (hidle.nodes ▸ hn)).congr hidle.nodes hidle.connections) hv
    have hboth := hidle.trans hconnect
    have hchain : Idle v t := by
      refine idle_chainAll (fun n hn => ?_) h
      rw [hboth.nodes] at hn ⊢
      exact (hled n hn).congr hboth.connections
    exact (hboth.trans hchain).fixes

/-! ## The whole repair -/

/-- no switch of a document has two open branch ends -/
def Settled (document : Value) : Prop :=
  ∀ fields c, document = .object fields → Connections.load (Value.field "connections" fields) = .ok c →
    Reconverged (Document.nodesOf (Value.field "nodes" fields)) c

/-- no output of a document is left to chain -/
def Continued (cfg : BuildConfig) (document : Value) : Prop :=
  ∀ fields c, document = .object fields → Connections.load (Value.field "connections" fields) = .ok c →
    ∀ n ∈ Document.nodesOf (Value.field "nodes" fields),
      Led cfg ((Document.nodesOf (Value.field "nodes" fields)).filter fun m => !m.isTrigger) n
        ⟨Document.nodesOf (Value.field "nodes" fields), c, 0, []⟩

theorem settled_iff {fields : Fields} {nodes : List Node} {c : Connections} (h : Document.Holds fields nodes c)
    (hload : Connections.load (Value.field "connections" fields) = .ok c) :
    Settled (.object fields) ↔ Reconverged nodes c := by
  constructor
  · intro hall
    have hsettled := hall fields c rfl hload
    rwa [h.nodesOf] at hsettled
  · rintro hall _ d ⟨⟩ hd
    cases hload.symm.trans hd
    rwa [h.nodesOf]

theorem continued_iff {cfg : BuildConfig} {fields : Fields} {s : State}
    (h : Document.Holds fields s.nodes s.connections)
    (hload : Connections.load (Value.field "connections" fields) = .ok s.connections) :
    Continued cfg (.object fields) ↔ ∀ n ∈ s.nodes, Led cfg (s.nodes.filter fun m => !m.isTrigger) n s := by
  constructor
  · intro hall n hn
    have hled := hall fields s.connections rfl hload n
    rw [h.nodesOf] at hled
    exact (hled hn).congr rfl
  · rintro hall _ d ⟨⟩ hd n hn
    cases hload.symm.trans hd
    rw [h.nodesOf] at hn ⊢
    exact (hall n hn).congr rfl

theorem written_eq_self {fields : Fields} {s : State} (h : Document.Holds fields s.nodes s.connections) :
    written fields s = fields := by
  rw [written, Table.put_of_get? h.atNodes, Table.put_of_get? h.atConnections]

/-- everything but switches and outputs is seen to: the connections are in normal form without an edge into a trigger,
and every node is fed, as far as it can be -/
structure Tended (cfg : BuildConfig) (s : State) : Prop where
  named : WellNamed s.nodes
  canonical : s.connections.Canonical
  simple : s.connections.Simple
  free : ∀ a b, s.connections.Joins (.text a) b → ∀ n ∈ s.nodes, n.isTrigger = true → n.name ≠ .text b
  fed : ∀ n ∈ s.nodes, Fed cfg n s

section

variable {cfg : BuildConfig} {fields : Fields} {s t : State} (h : Tended cfg s)
  (hholds : Document.Holds fields s.nodes s.connections)

include h hholds

theorem Tended.load : Connections.load (Value.field "connections" fields) = .ok s.connections := by
  rw [hholds.connections_field, Connections.load_toValue_simple h.canonical h.simple]

/-- the first step finds nothing to do then -/
theorem Tended.canonicalize (ht : canonicalize fields s.nodes = .ok t) :
    t.nodes = s.nodes ∧ t.connections = s.connections ∧ t.fixes = 0 := by
  obtain ⟨normal, hnormal, ht⟩ := bind_eq_ok.1 ht
  obtain ⟨d, hload, ht⟩ := bind_eq_ok.1 ht
  cases (h.load hholds).symm.trans hload
  rw [hholds.connections_field, Connections.normalize_toValue h.canonical] at hnormal
  cases hnormal
  rw [hholds.connections_field] at ht
  simp only [Connections.toValue_beq_self h.canonical.toKeyed, if_true] at ht
  rw [foldl_dropIncoming_eq_self] at ht
  · cases ht
    exact ⟨rfl, rfl, rfl⟩
  · intro n hn htrigger name hname
    refine List.count_eq_zero.2 fun hmem => ?_
    obtain ⟨l, hl, hnode⟩ := List.mem_map.1 hmem
    obtain ⟨x, hx, hsource, -⟩ := Connections.mem_links_iff.1 hl
    obtain ⟨source, hs⟩ := h.canonical.texts x hx
    have hjoins := h.canonical.toKeyed.exists_link_iff.1 ⟨l, hl, hsource.symm.trans hs, hnode⟩
    exact h.free source name hjoins n hn htrigger hname

/-- **Where everything else is seen to, a repair changes nothing exactly when no switch has two open branch ends and no
output is left to chain.** -/
theorem Tended.repair_iff {r : Repaired} (hr : repair cfg (.object fields) = .ok r) :
    (r.fixes = 0 ∧ r.document = .object fields) ↔ Settled (.object fields) ∧ Continued cfg (.object fields) := by
  have hnodes : (s.nodes.map Node.toValue).filterMap Node.ofValue? = s.nodes := Document.nodesOf_map_toValue s.nodes
  have htexts : ∀ n ∈ s.nodes, ∃ name, n.name = .text name := fun n hn => (h.named.texts n hn).imp fun _ hs => hs.1
  obtain ⟨start, t, hstart, ht, rfl⟩ := repair_mends hr hholds.nodes_field (by rwa [hnodes])
  rw [hnodes] at hstart
  obtain ⟨hsame, hconnections, hzero⟩ := h.canonicalize hholds hstart
  have hfixes := mend_fixes_iff (fun n hn => (h.fed n (hsame ▸ hn)).congr hsame hconnections) ht
  have hled : ∀ n, Led cfg (s.nodes.filter fun m => !m.isTrigger) n start ↔
      Led cfg (s.nodes.filter fun m => !m.isTrigger) n s :=
    fun n => ⟨(·.congr hconnections.symm), (·.congr hconnections)⟩
  have hcounted := moves_counted (mend_moves ht)
  rw [hzero, hsame, hconnections] at hfixes
  simp only [hled] at hfixes
  rw [settled_iff hholds (h.load hholds), continued_iff hholds (h.load hholds), ← hfixes]
  refine ⟨And.left, fun hdone => ⟨hdone, congrArg Value.object (written_eq_self ?_)⟩⟩
  rw [hcounted.nodes (hdone.trans hzero.symm), hcounted.connections (hdone.trans hzero.symm), hsame, hconnections]
  exact hholds

end

/-- what is no workflow is handed back as it came -/
theorem repair_skips {cfg : BuildConfig} {document : Value} {r : Repaired} (h : repair cfg document = .ok r)
    (hn : ∀ fields items, document = .object fields → Value.field "nodes" fields ≠ .list items) :
    r.document = document ∧ r.fixes = 0 ∧ Settled document := by
  cases document with
  | object fields =>
    have hnone : Document.nodesOf (Value.field "nodes" fields) = [] := by
      unfold Document.nodesOf
      cases hv : Value.field "nodes" fields with
      | list items => exact absurd hv (hn fields items rfl)
      | _ => rfl
    refine ⟨?_, ?_, ?_⟩
    · simp only [repair] at h
      split at h
      · rename_i items hitems
        exact absurd hitems (hn fields items rfl)
      · cases h
        rfl
    · simp only [repair] at h
      split at h
      · rename_i items hitems
        exact absurd hitems (hn fields items rfl)
      · cases h
        rfl
    · rintro _ c ⟨⟩ -
      rw [hnone]
      exact fun sw hsw => absurd hsw List.not_mem_nil
  | _ =>
    cases h
    refine ⟨rfl, rfl, ?_⟩
    rintro fields c ⟨⟩

/-- **A second repair changes nothing exactly when no switch is left with two open branch ends.** -/
theorem repair_again_iff {cfg : BuildConfig} {document : Value} {r r' : Repaired}
    (hw : ∀ fields, document = .object fields → WellNamed (Document.nodesOf (Value.field "nodes" fields)))
    (h : repair cfg document = .ok r) (h' : repair cfg r.document = .ok r') :
    (r'.fixes = 0 ∧ r'.document = r.document) ↔ Settled r.document := by
  by_cases hn : ∀ fields items, document = .object fields → Value.field "nodes" fields ≠ .list items
  · obtain ⟨hsame, -, hsettled⟩ := repair_skips h hn
    rw [hsame] at h' ⊢
    obtain ⟨hsame', hfixes', -⟩ := repair_skips h' hn
    exact iff_of_true ⟨hfixes', hsame'⟩ hsettled
  · push Not at hn
    obtain ⟨fields, items, rfl, hitems⟩ := hn
    have hnamed := hw fields rfl
    rw [hitems] at hnamed
    obtain ⟨start, s, hstart, hs, rfl⟩ := repair_mends h hitems fun n hn => (hnamed.texts n hn).imp fun _ hs => hs.1
    obtain ⟨c, -, hmended⟩ := mended_of_mend hstart hs hnamed
    obtain ⟨-, -, hkept, -⟩ := canonicalize_connections hstart
    have hfed := fed_of_mend hs (by rwa [hkept])
    have htended : Tended cfg s := ⟨hmended.named, hmended.canonical, hmended.simple, hmended.free, hfed⟩
    have hholds := holds_written fields s
    rw [htended.repair_iff hholds h']
    exact and_iff_left ((continued_iff hholds (htended.load hholds)).2 (led_of_mend hs))

/-! ## A document that is repaired anew -/

/-- a node with a place and parameters -/
def batchesNode (id name short : String) (x y : Int) (parameters : Fields) : Node :=
  ⟨[(.text "id", .text id), (.text "name", .text name), (.text "type", .text (Catalog.fullTag short)),
    (.text "typeVersion", .int 1), (.text "position", .list [.int x, .int y]),
    (.text "parameters", .object parameters)]⟩

/-- a switch between two loops over batches, at each of which its branch ends whatever edges leave it -/
def batchesNodes : List Node := [
  batchesNode "1" "Start" "manualTrigger" 0 0 [],
  batchesNode "2" "Route" "switch" 200 0
    [(.text "rules", Parameters.object [("rules", .list [
      Parameters.object [("value2", "a")], Parameters.object [("value2", "b")]])])],
  batchesNode "3" "Batch A" "splitInBatches" 400 0 [],
  batchesNode "4" "Batch B" "splitInBatches" 400 400 []]

def batchesConnections : Connections :=
  ((Connections.empty.connect (.text "Start") "Route" 0).connect (.text "Route") "Batch A" 0).addEdge
    (.text "Route") mainType 1 (.plain "Batch B" mainType 0)

def batchesDocument : Fields := [
  (.text "name", .text "Batches"), (.text "nodes", .list (batchesNodes.map Node.toValue)),
  (.text "connections", batchesConnections.toValue)]

theorem wellNamed_batchesDocument : WellNamed (Document.nodesOf (Value.field "nodes" batchesDocument)) := by
  have hnodes : Document.nodesOf (Value.field "nodes" batchesDocument) = batchesNodes :=
    Document.nodesOf_map_toValue batchesNodes
  have hnames : batchesNodes.map Node.name = ["Start", "Route", "Batch A", "Batch B"].map Value.text := rfl
  rw [hnodes]
  exact .of_names hnames (by decide +kernel) (by decide)

/-- nodes that are listed from left to right are connected in the order in which they are listed -/
theorem connectAll_eq (cfg : BuildConfig) (s : State) : connectAll cfg s = (do
    let placed ← withPlaces s.nodes
    let sorted :=
      if placed.Pairwise (fun a b => (!b.1.lt a.1) = true) then placed else placed.mergeSort fun a b => !b.1.lt a.1
    sorted.foldlM (fun s p => connectNode cfg s p.2) s) := by
  unfold connectAll
  congr! 2 with placed
  split
  · rename_i hsorted
    rw [List.mergeSort_of_pairwise hsorted]
  · rfl

/-- how many nodes a document has -/
def nodeCount : Value → Nat
  | .object fields => (Document.nodesOf (Value.field "nodes" fields)).length
  | _ => 0

theorem repairs_batchesDocument :
    ∃ r r', repair .standard (.object batchesDocument) = .ok r ∧ repair .standard r.document = .ok r' ∧
      r'.fixes = 3 ∧ nodeCount r.document < nodeCount r'.document := by
  have hruns : ((repair .standard (.object batchesDocument)).toOption.any fun r =>
      (repair .standard r.document).toOption.any fun r' =>
        r'.fixes = 3 && decide (nodeCount r.document < nodeCount r'.document)) = true := by
    -- the nodes stand in order already, and sorting is nothing that the kernel computes
    simp only [repair, mend, connectAll_eq]
    decide +kernel
  obtain ⟨r, hr, hagain⟩ := exists_ok_of_any hruns
  obtain ⟨r', hr', hmore⟩ := exists_ok_of_any hagain
  rw [Bool.and_eq_true, decide_eq_true_iff, decide_eq_true_iff] at hmore
  exact ⟨r, r', hr, hr', hmore⟩

/-- a second repair of the batches counts fixes and adds a node -/
theorem repair_again_batches :
    WellNamed (Document.nodesOf (Value.field "nodes" batchesDocument)) ∧
      ∃ r r', repair .standard (.object batchesDocument) = .ok r ∧ repair .standard r.document = .ok r' ∧
        r'.fixes ≠ 0 ∧ r'.document ≠ r.document := by
  obtain ⟨r, r', hr, hr', hfixes, hcount⟩ := repairs_batchesDocument
  refine ⟨wellNamed_batchesDocument, r, r', hr, hr', by omega, fun hsame => ?_⟩
  rw [hsame] at hcount
  exact Nat.lt_irrefl _ hcount

/-- so two of its branches are left open by the first -/
theorem repair_again_iff_batches :
    WellNamed (Document.nodesOf (Value.field "nodes" batchesDocument)) ∧
      ∃ r r', repair .standard (.object batchesDocument) = .ok r ∧ repair .standard r.document = .ok r' ∧
        ((r'.fixes = 0 ∧ r'.document = r.document) ↔ Settled r.document) ∧ ¬ Settled r.document := by
  obtain ⟨r, r', hr, hr', hfixes, -⟩ := repairs_batchesDocument
  have hiff := repair_again_iff (by rintro _ ⟨⟩; exact wellNamed_batchesDocument) hr hr'
  refine ⟨wellNamed_batchesDocument, r, r', hr, hr', hiff, fun hsettled => ?_⟩
  have hzero := (hiff.2 hsettled).1
  omega

end Repair

end WorkflowGraph
