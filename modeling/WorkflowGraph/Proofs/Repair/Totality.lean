import WorkflowGraph.Proofs.Repair.Repetition
import WorkflowGraph.Proofs.Repair.Turns
import WorkflowGraph.Proofs.Validation.Totality
/-
When a document can be repaired. A repair that meets a list or an object for a name is given up and hands the document
back, but numbers that are too large are faults: the input of an edge that is infinite, a place beyond the doubles, and,
at the turns where they are asked for, the spacing, the least distance on a row, and the square of a distance.

- `succeeds_mend_iff`: the steps after the first one succeed exactly when every turn keeps to numbers in range.
- `succeeds_repair_iff`: when a repair gives a result.
- `checked_and_repaired_iff`: when a document has both a report and a repair.
-/
namespace WorkflowGraph

namespace Repair

/-! ## Turns that can be taken -/

/-- a name that can be a key, and a place in range -/
def Sited (n : Node) : Prop := Succeeds n.name.toKey ∧ Succeeds n.place

theorem sited_mergeNode (id name : String) (x y : Double) : Sited (mergeNode id name x y) :=
  ⟨⟨.text name, rfl⟩, ⟨x, y⟩, rfl⟩

/-- what the turn of a task calculates with is in range -/
def Manageable (cfg : BuildConfig) (s : State) : Task → Prop
  /- a merge node is placed beside the open ends when there are two or more -/
  | .join sw => ∀ source, sw.name.toKey = .ok source → 1 < (openEnds s.nodes s.connections source).length →
      Succeeds (Numeric.whole cfg.spacingX).toDouble
  /- the distances to the nodes on the left are squared when no edge leads to the node -/
  | .feed n => n.isTrigger = false → isTarget s.connections n = false → ∀ p, n.place = .ok p → ∀ m ∈ s.nodes,
      (m.name == n.name) = false → ∀ q, m.place = .ok q → p.x.le q.x = false →
        Rows.sameRow (.whole cfg.rowTolerance) p q = true →
          Succeeds (Rows.square (q.x.sub p.x)) ∧ Succeeds (Rows.square (q.y.sub p.y))
  /- the least distance is added to the place of the node when its output leads nowhere -/
  | .chain n => n.isConcluding = false → (∀ key, n.name.toKey = .ok key → s.connections.hasOutgoing key = false) →
      ∀ m ∈ s.nodes, m.isTrigger = false → (m.name == n.name) = false → Succeeds (Numeric.whole cfg.rowMinDx).toDouble

section

variable {cfg : BuildConfig} {s : State}

theorem succeeds_rightmost {x : Double} {nodes : List Node} (h : ∀ n ∈ nodes, Succeeds n.place) :
    Succeeds (rightmost x nodes) := by
  induction nodes generalizing x with
  | nil => exact succeeds_ok x
  | cons n nodes ih =>
    rw [List.forall_mem_cons] at h
    obtain ⟨place, hplace⟩ := h.1
    exact succeeds_bind_iff.2 ⟨place, hplace, ih h.2⟩

theorem succeeds_reconverge_iff {registry : NameRegistry} {sw : Node} (hs : ∀ n ∈ s.nodes, Sited n) (hsw : Sited sw) :
    Succeeds (reconverge cfg (s, registry) sw) ↔ Manageable cfg s (.join sw) := by
  obtain ⟨source, hsource⟩ := hsw.1
  obtain ⟨place, hplace⟩ := hsw.2
  constructor
  · rintro ⟨⟨t, registry'⟩, h⟩ source' hsource' hmany
    obtain ⟨source'', hsource'', hcase⟩ := reconverges_of_eq_ok h
    cases hsource'.symm.trans hsource''
    cases hcase with
    | alone detail hfew => omega
    | joined first others origin place right spacing detail hends hothers horigin hright hspacing hplace =>
      exact ⟨spacing, hspacing⟩
  · intro h
    refine succeeds_bind_iff.2 ⟨source, hsource, ?_⟩
    simp only [NameRegistry.claim]
    split
    · rename_i first firstNode second others hends
      have hopen : openEnds s.nodes s.connections source = (first, firstNode) :: second :: others := hends
      have hplaces : ∀ e ∈ (first, firstNode) :: second :: others, Succeeds e.2.place :=
        hopen ▸ fun e he => (hs e.2 (named_of_mem_openEnds he).1).2
      rw [List.forall_mem_cons] at hplaces
      obtain ⟨origin, horigin⟩ := hplaces.1
      obtain ⟨right, hright⟩ := succeeds_rightmost (x := origin.x) (List.forall_mem_map.2 hplaces.2)
      obtain ⟨spacing, hspacing⟩ := h source hsource (by rw [hopen, List.length_cons, List.length_cons]; omega)
      refine succeeds_bind_iff.2 ⟨origin, horigin, succeeds_bind_iff.2 ⟨right, hright, ?_⟩⟩
      exact succeeds_bind_iff.2 ⟨spacing, hspacing, succeeds_bind_iff.2 ⟨place, hplace, succeeds_ok _⟩⟩
    · exact succeeds_ok _

theorem succeeds_connectNode_iff {n : Node} (hs : ∀ m ∈ s.nodes, Sited m) (hn : Sited n) :
    Succeeds (connectNode cfg s n) ↔ Manageable cfg s (.feed n) := by
  obtain ⟨p, hp⟩ := hn.2
  unfold connectNode
  split
  · rename_i hfed
    refine iff_of_true (succeeds_ok _) fun hopen htarget => ?_
    simp [hopen, htarget] at hfed
  · rename_i hopen
    rw [Bool.or_eq_true, not_or, Bool.not_eq_true, Bool.not_eq_true] at hopen
    have hsearch : Succeeds (Rows.predecessor id (.whole cfg.rowTolerance) n s.nodes) ↔
        Manageable cfg s (.feed n) := by
      rw [Rows.succeeds_predecessor_iff hp]
      constructor
      · intro h _ _ p' hp' m hm hother q hq
        cases hp.symm.trans hp'
        obtain ⟨q', hq', hsquares⟩ := h m hm hother
        cases hq.symm.trans hq'
        exact hsquares
      · intro h m hm hother
        obtain ⟨q, hq⟩ := (hs m hm).2
        exact ⟨q, hq, h hopen.1 hopen.2 p hp m hm hother q hq⟩
    rw [← hsearch, succeeds_bind_iff]
    constructor
    · rintro ⟨found, hfound, -⟩
      exact ⟨found, hfound⟩
    · rintro ⟨found, hfound⟩
      refine ⟨found, hfound, ?_⟩
      cases found with
      | none => exact succeeds_ok _
      | some left =>
        obtain ⟨key, hkey⟩ := (hs left (Rows.mem_of_predecessor hfound)).1
        exact succeeds_bind_iff.2 ⟨key, hkey, succeeds_ok _⟩

theorem succeeds_chainNode_iff {n : Node} (hs : ∀ m ∈ s.nodes, Sited m) (hn : Sited n) :
    Succeeds (chainNode cfg (s.nodes.filter fun m => !m.isTrigger) s n) ↔ Manageable cfg s (.chain n) := by
  obtain ⟨key, hkey⟩ := hn.1
  have hout : (∀ key, n.name.toKey = .ok key → s.connections.hasOutgoing key = false) ↔
      s.connections.hasOutgoing key = false := by
    rw [hkey]
    simp
  rw [Manageable, hout, chainNode, hkey]
  show Succeeds (if _ then _ else _) ↔ _
  split
  · rename_i hled
    refine iff_of_true (succeeds_ok _) fun hopen hnone => ?_
    simp [hopen, hnone] at hled
  · rename_i hopen
    rw [Bool.or_eq_true, not_or, Bool.not_eq_true, Bool.not_eq_true] at hopen
    have hsearch : Succeeds (Rows.successor id (.whole cfg.rowTolerance) (.whole cfg.rowMinDx) n
        (s.nodes.filter fun m => !m.isTrigger)) ↔
          ∀ m ∈ s.nodes, m.isTrigger = false → (m.name == n.name) = false →
            Succeeds (Numeric.whole cfg.rowMinDx).toDouble := by
      rw [Rows.succeeds_successor_iff, and_iff_right hn.2]
      simp only [List.mem_filter, Bool.not_eq_true', and_imp, id_eq]
      refine forall₂_congr fun m hm => forall₂_congr fun _ _ => and_iff_right (hs m hm).2
    simp only [hopen.1, hopen.2, true_implies]
    rw [← hsearch, succeeds_bind_iff]
    constructor
    · rintro ⟨found, hfound, -⟩
      exact ⟨found, hfound⟩
    · rintro ⟨found, hfound⟩
      refine ⟨found, hfound, ?_⟩
      cases found <;> exact succeeds_ok _

end

/-! ## The steps after the first one -/

section

variable {cfg : BuildConfig} {start joined fed s : State}

/-- joining the branches of a switch leaves the nodes sited -/
theorem sited_reconverge {registry registry' : NameRegistry} {t : State} {sw : Node} (hs : ∀ n ∈ s.nodes, Sited n)
    (h : reconverge cfg (s, registry) sw = .ok (t, registry')) : ∀ n ∈ t.nodes, Sited n := by
  obtain ⟨source, -, hcase⟩ := reconverges_of_eq_ok h
  cases hcase with
  | alone detail hfew => exact hs
  | joined first others origin place right spacing detail hends hmany horigin hright hspacing hplace =>
    exact List.forall_mem_append.2 ⟨hs, List.forall_mem_singleton.2 (sited_mergeNode _ _ _ _)⟩

/-- nodes are connected only when all of them, and so all that were there at the start, have places in range -/
theorem places_of_connectAll (hjoined : reconvergeAll cfg start = .ok joined) (hfed : connectAll cfg joined = .ok fed) :
    ∀ n ∈ start.nodes, Succeeds n.place := by
  obtain ⟨added, hadded, -⟩ := moves_merges (reconvergeAll_moves hjoined)
  obtain ⟨placed, hplaced, -⟩ := bind_eq_ok.1 hfed
  intro n hn
  have hmem : n ∈ joined.nodes := hadded ▸ List.mem_append_left added hn
  exact succeeds_map_iff.1 (succeeds_mapM_iff.1 ⟨placed, hplaced⟩ n hmem)

theorem succeeds_reconvergeAll_iff (hs : ∀ n ∈ start.nodes, Sited n) :
    Succeeds (reconvergeAll cfg start) ↔
      ∀ s sw, Turn cfg start s (.join sw) → Manageable cfg s (.join sw) := by
  -- every switch finds nodes that are sited, and it is one of them
  have hstep : ∀ {keys : List Key} {sw : Node} {acc : State × NameRegistry},
      Visits (reconverge cfg) (start, registryOf keys) (start.nodes.filter Node.isSwitch) sw acc →
        (Succeeds (reconverge cfg acc sw) ↔ Manageable cfg acc.1 (.join sw)) := by
    intro keys sw acc hvisit
    refine succeeds_reconverge_iff ?_ (hs sw (List.mem_of_mem_filter hvisit.mem))
    exact hvisit.induction (P := fun acc => ∀ n ∈ acc.1.nodes, Sited n) hs fun _ _ _ _ hrec hall =>
      sited_reconverge hall hrec
  obtain ⟨keys, hkeys⟩ := succeeds_mapM_iff.2 fun n hn => (hs n hn).1
  constructor
  · rintro ⟨joined, hjoined⟩ s sw hturn
    cases hturn with
    | join hkeys' hvisit =>
      cases hkeys.symm.trans hkeys'
      obtain ⟨keys', hkeys', hrun⟩ := bind_eq_ok.1 hjoined
      cases hkeys.symm.trans hkeys'
      obtain ⟨last, hrun, -⟩ := bind_eq_ok.1 hrun
      exact (hstep hvisit).1 (succeeds_foldlM_iff.1 ⟨last, hrun⟩ sw _ hvisit)
  · intro h
    obtain ⟨last, hrun⟩ := succeeds_foldlM_iff.2 fun sw acc hvisit =>
      (hstep hvisit).2 (h acc.1 sw (.join hkeys hvisit))
    exact succeeds_bind_iff.2 ⟨keys, hkeys, succeeds_bind_iff.2 ⟨last, hrun, succeeds_ok _⟩⟩

theorem succeeds_connectAll_iff (hjoined : reconvergeAll cfg start = .ok joined) (hs : ∀ n ∈ joined.nodes, Sited n) :
    Succeeds (connectAll cfg joined) ↔
      ∀ s n, Turn cfg start s (.feed n) → Manageable cfg s (.feed n) := by
  obtain ⟨placed, hplaced⟩ : Succeeds (withPlaces joined.nodes) :=
    succeeds_mapM_iff.2 fun n hn => succeeds_map_iff.2 (hs n hn).2
  have hstep : ∀ {p : Double × Node} {s : State},
      Visits (fun s p => connectNode cfg s p.2) joined (placed.mergeSort fun a b => !b.1.lt a.1) p s →
        (Succeeds (connectNode cfg s p.2) ↔ Manageable cfg s (.feed p.2)) := by
    intro p s hvisit
    have hsame : s.nodes = joined.nodes :=
      hvisit.induction (P := fun u => u.nodes = joined.nodes) rfl fun _ _ _ _ hrun hu => (nodes_connectNode hrun).trans hu
    have hn : p.2 ∈ joined.nodes := (mem_placed_iff hplaced).1 ⟨p, hvisit.mem, rfl⟩
    exact succeeds_connectNode_iff (hsame ▸ hs) (hs p.2 hn)
  constructor
  · rintro ⟨fed, hfed⟩ s n hturn
    cases hturn with
    | feed hjoined' hplaced' hvisit =>
      cases hjoined.symm.trans hjoined'
      cases hplaced.symm.trans hplaced'
      obtain ⟨placed', hplaced', hrun⟩ := bind_eq_ok.1 hfed
      cases hplaced.symm.trans hplaced'
      exact (hstep hvisit).1 (succeeds_foldlM_iff.1 ⟨fed, hrun⟩ _ _ hvisit)
  · intro h
    obtain ⟨fed, hrun⟩ := succeeds_foldlM_iff.2 fun p s hvisit =>
      (hstep hvisit).2 (h s p.2 (.feed hjoined hplaced hvisit))
    exact succeeds_bind_iff.2 ⟨placed, hplaced, fed, hrun⟩

theorem succeeds_chainAll_iff (hjoined : reconvergeAll cfg start = .ok joined) (hfed : connectAll cfg joined = .ok fed)
    (hs : ∀ n ∈ fed.nodes, Sited n) :
    Succeeds (chainAll cfg fed) ↔ ∀ s n, Turn cfg start s (.chain n) → Manageable cfg s (.chain n) := by
  have hstep : ∀ {n : Node} {s : State}, Visits (chainNode cfg (fed.nodes.filter fun m => !m.isTrigger)) fed fed.nodes n s →
      (Succeeds (chainNode cfg (fed.nodes.filter fun m => !m.isTrigger) s n) ↔ Manageable cfg s (.chain n)) := by
    intro n s hvisit
    have hsame := nodes_of_visits_chainNode hvisit
    rw [← hsame]
    exact succeeds_chainNode_iff (hsame ▸ hs) (hs n hvisit.mem)
  constructor
  · rintro h s n hturn
    cases hturn with
    | chain hjoined' hfed' hvisit =>
      cases hjoined.symm.trans hjoined'
      cases hfed.symm.trans hfed'
      exact (hstep hvisit).1 (succeeds_foldlM_iff.1 h _ _ hvisit)
  · exact fun h => succeeds_foldlM_iff.2 fun n s hvisit => (hstep hvisit).2 (h s n (.chain hjoined hfed hvisit))

/-- **The steps after the first one succeed exactly when every place is in range and every turn can be managed**, given
names that can be keys. -/
theorem succeeds_mend_iff (hnames : ∀ n ∈ start.nodes, Succeeds n.name.toKey) :
    Succeeds (mend cfg start) ↔
      (∀ n ∈ start.nodes, Succeeds n.place) ∧ ∀ s task, Turn cfg start s task → Manageable cfg s task := by
  have hsited : (∀ n ∈ start.nodes, Sited n) ↔ ∀ n ∈ start.nodes, Succeeds n.place :=
    forall₂_congr fun n hn => and_iff_right (hnames n hn)
  constructor
  · intro h
    obtain ⟨joined, hjoined, h⟩ := succeeds_bind_iff.1 h
    obtain ⟨fed, hfed, h⟩ := succeeds_bind_iff.1 h
    have hs := hsited.2 (places_of_connectAll hjoined hfed)
    have hs' := moves_forall (reconvergeAll_moves hjoined) sited_mergeNode hs
    refine ⟨hsited.1 hs, fun s task hturn => ?_⟩
    cases task with
    | join sw => exact (succeeds_reconvergeAll_iff hs).1 ⟨joined, hjoined⟩ s sw hturn
    | feed n => exact (succeeds_connectAll_iff hjoined hs').1 ⟨fed, hfed⟩ s n hturn
    | chain n =>
      exact (succeeds_chainAll_iff hjoined hfed ((connectAll_moves hfed).2 ▸ hs')).1 h s n hturn
  · rintro ⟨hplaces, hturns⟩
    have hs := hsited.2 hplaces
    obtain ⟨joined, hjoined⟩ := (succeeds_reconvergeAll_iff hs).2 fun s sw => hturns s (.join sw)
    have hs' := moves_forall (reconvergeAll_moves hjoined) sited_mergeNode hs
    obtain ⟨fed, hfed⟩ := (succeeds_connectAll_iff hjoined hs').2 fun s n => hturns s (.feed n)
    have hchain := (succeeds_chainAll_iff hjoined hfed ((connectAll_moves hfed).2 ▸ hs')).2 fun s n => hturns s (.chain n)
    exact succeeds_bind_iff.2 ⟨joined, hjoined, succeeds_bind_iff.2 ⟨fed, hfed, hchain⟩⟩

end

/-! ## The whole repair -/

/-- a name that is a list or an object makes the steps after the first one give up -/
theorem mend_gives_up {cfg : BuildConfig} {s : State} {n : Node} (hn : n ∈ s.nodes) (hname : ¬ Succeeds n.name.toKey) :
    ∃ kind, mend cfg s = .error (.notScalar kind) := by
  cases hkeys : s.nodes.mapM fun n => n.name.toKey with
  | ok keys => exact absurd (succeeds_mapM_iff.1 ⟨keys, hkeys⟩ n hn) hname
  | error fault =>
    obtain ⟨m, -, hm⟩ := exists_error_of_mapM hkeys
    obtain ⟨kind, rfl⟩ := Value.toKey_error hm
    refine ⟨kind, ?_⟩
    rw [mend, reconvergeAll, hkeys]
    rfl

/-- nodes of a document and its connections that a repair can deal with -/
def Mendable (cfg : BuildConfig) (fields : Fields) (nodes : List Node) : Prop :=
  (∀ v ∈ Connections.descriptors (Value.field "connections" fields), ¬ Connections.Endless v) ∧
    ((∃ n ∈ nodes, ¬ Succeeds n.name.toKey) ∨
      (∀ n ∈ nodes, Succeeds n.place) ∧
        ∀ start, canonicalize fields nodes = .ok start → ∀ s task, Turn cfg start s task → Manageable cfg s task)

theorem succeeds_canonicalize_iff {fields : Fields} (nodes : List Node) :
    Succeeds (canonicalize fields nodes) ↔
      ∀ v ∈ Connections.descriptors (Value.field "connections" fields), ¬ Connections.Endless v := by
  rw [canonicalize, succeeds_bind_iff]
  constructor
  · rintro ⟨normal, hnormal, -⟩
    exact Connections.succeeds_normalize_iff.1 ⟨normal, hnormal⟩
  · intro h
    obtain ⟨normal, hnormal⟩ := Connections.succeeds_normalize_iff.2 h
    obtain ⟨c, hc⟩ := Connections.succeeds_load_iff.2 h
    exact ⟨normal, hnormal, succeeds_bind_iff.2 ⟨c, hc, succeeds_ok _⟩⟩

/-- a repair gives a result when its steps succeed or it is given up -/
theorem succeeds_repair_of_list {cfg : BuildConfig} {fields : Fields} {items : List Value}
    (hn : Value.field "nodes" fields = .list items) :
    Succeeds (repair cfg (.object fields)) ↔ ∃ start, canonicalize fields (items.filterMap Node.ofValue?) = .ok start ∧
      (Succeeds (mend cfg start) ∨ ∃ kind, mend cfg start = .error (.notScalar kind)) := by
  simp only [repair, hn]
  rw [succeeds_bind_iff]
  refine exists_congr fun start => and_congr_right fun _ => ?_
  split
  · rename_i s hs
    exact iff_of_true (succeeds_ok _) (Or.inl ⟨s, hs⟩)
  · rename_i kind hk
    exact iff_of_true (succeeds_ok _) (Or.inr ⟨kind, hk⟩)
  · rename_i fault hnot hfault
    refine iff_of_false (not_succeeds_error _) ?_
    rintro (⟨s, hs⟩ | ⟨kind, hk⟩)
    · cases hs.symm.trans hfault
    · cases hk.symm.trans hfault
      exact hnot kind rfl

theorem succeeds_repair_iff_mendable {cfg : BuildConfig} {fields : Fields} {items : List Value}
    (hn : Value.field "nodes" fields = .list items) :
    Succeeds (repair cfg (.object fields)) ↔ Mendable cfg fields (items.filterMap Node.ofValue?) := by
  rw [succeeds_repair_of_list hn, Mendable, ← succeeds_canonicalize_iff (items.filterMap Node.ofValue?)]
  constructor
  · rintro ⟨start, hstart, h⟩
    obtain ⟨-, -, hnodes, -⟩ := canonicalize_connections hstart
    refine ⟨⟨start, hstart⟩, ?_⟩
    by_cases hnames : ∀ n ∈ items.filterMap Node.ofValue?, Succeeds n.name.toKey
    · rw [← hnodes] at hnames
      have hmend : Succeeds (mend cfg start) := h.resolve_right fun ⟨kind, hk⟩ => scalar_mend cfg hnames kind hk
      obtain ⟨hplaces, hturns⟩ := (succeeds_mend_iff hnames).1 hmend
      refine Or.inr ⟨hnodes ▸ hplaces, fun start' hstart' => ?_⟩
      cases hstart.symm.trans hstart'
      exact hturns
    · push Not at hnames
      exact Or.inl hnames
  · rintro ⟨⟨start, hstart⟩, h⟩
    obtain ⟨-, -, hnodes, -⟩ := canonicalize_connections hstart
    refine ⟨start, hstart, ?_⟩
    by_cases hnames : ∀ n ∈ items.filterMap Node.ofValue?, Succeeds n.name.toKey
    · obtain ⟨hplaces, hturns⟩ := h.resolve_left fun ⟨n, hn, hname⟩ => hname (hnames n hn)
      rw [← hnodes] at hnames hplaces
      exact Or.inl ((succeeds_mend_iff hnames).2 ⟨hplaces, hturns start hstart⟩)
    · push Not at hnames
      obtain ⟨n, hn, hname⟩ := hnames
      exact Or.inr (mend_gives_up (hnodes ▸ hn) hname)

end Repair

end WorkflowGraph
