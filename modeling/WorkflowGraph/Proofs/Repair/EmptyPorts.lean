import WorkflowGraph.Proofs.Repair.Repetition
import WorkflowGraph.Proofs.Repair.Turns
/-
Empty ports. No step of a repair asks whether a port is empty: an edge that it adds leaves by the first main port of its
source, whatever that is. So an empty port stays empty unless it is the first main port of a switch that some step draws
an edge from, as the end of a branch, as the left neighbour of a node without an incoming edge, or as an output that
leads nowhere.

- `empty_ports_of_repaired`: which empty ports of switches are filled.
- `repair_fills_port`: one that is.
-/
namespace WorkflowGraph

/-! ## The first main port -/

namespace Connections

/-- an added edge fills the first main port of its source and of no other -/
theorem portAt_connect_ne_nil {c : Connections} {source k : Key} {target : String} {index : Nat} :
    (c.connect source target index).portAt k mainType 0 ≠ [] ↔
      c.portAt k mainType 0 ≠ [] ∨ (source == k) = true := by
  rw [connect, portAt_addEdge]
  split
  · rename_i h
    have hmem := (mem_insertEdge (.plain target mainType index) _ (c.portAt k mainType 0)).2 (Or.inl rfl)
    exact iff_of_true (List.ne_nil_of_mem hmem) (Or.inr h.1)
  · rename_i h
    simp only [and_self, and_true] at h
    simp [h]

/-- a port that is there is empty when it holds no edge -/
theorem getElem?_ports_eq_nil_iff {c : Connections} {k : Key} {t : String} {i : Nat} (h : i < (c.ports k t).length) :
    (c.ports k t)[i]? = some [] ↔ c.portAt k t i = [] := by
  rw [portAt, List.getElem?_eq_getElem h, Option.getD_some, Option.some.injEq]

end Connections

namespace Repair

theorem portAt_joinEnds_ne_nil {c : Connections} {merge : String} {i : Nat} {ends : List String} {k : Key} :
    (joinEnds c merge i ends).portAt k mainType 0 ≠ [] ↔
      c.portAt k mainType 0 ≠ [] ∨ ∃ e ∈ ends, (Key.text e == k) = true := by
  induction ends generalizing c i with
  | nil => simp [joinEnds]
  | cons e ends ih => rw [joinEnds, ih, Connections.portAt_connect_ne_nil, List.exists_mem_cons_iff, or_assoc]

/-! ## Edges that a turn draws -/

/-- the turn of a task draws an edge from a source -/
def Draws (cfg : BuildConfig) (s : State) (k : Key) : Task → Prop
  /- the switch has two open ends or more, and the source is one of them -/
  | .join sw => ∃ source, sw.name.toKey = .ok source ∧ 1 < (openEnds s.nodes s.connections source).length ∧
      ∃ e ∈ openEnds s.nodes s.connections source, (Key.text e.1 == k) = true
  /- no edge leads to the node, and the source is its left neighbour -/
  | .feed n => n.isTrigger = false ∧ isTarget s.connections n = false ∧ ∃ left key,
      Rows.predecessor id (.whole cfg.rowTolerance) n s.nodes = .ok (some left) ∧ left.name.toKey = .ok key ∧
        (key == k) = true
  /- the source is the node, no edge leaves it, and it has a right neighbour -/
  | .chain n => ∃ key, n.name.toKey = .ok key ∧ (key == k) = true ∧ n.isConcluding = false ∧
      s.connections.hasOutgoing key = false ∧ ∃ right,
        Rows.successor id (.whole cfg.rowTolerance) (.whole cfg.rowMinDx) n (s.nodes.filter fun m => !m.isTrigger) =
          .ok (some right)

section

variable {cfg : BuildConfig} {s t : State}

theorem portAt_reconverge {registry registry' : NameRegistry} {sw : Node}
    (h : reconverge cfg (s, registry) sw = .ok (t, registry')) (k : Key) :
    t.connections.portAt k mainType 0 ≠ [] ↔ s.connections.portAt k mainType 0 ≠ [] ∨ Draws cfg s k (.join sw) := by
  obtain ⟨source, hsource, hcase⟩ := reconverges_of_eq_ok h
  cases hcase with
  | alone detail hfew =>
    have hnot : ¬ Draws cfg s k (.join sw) := by
      rintro ⟨source', hsource', hmany, -⟩
      cases hsource.symm.trans hsource'
      omega
    exact (or_iff_left hnot).symm
  | joined first others origin place right spacing detail hends hmany horigin hright hspacing hplace =>
    have hdraws : Draws cfg s k (.join sw) ↔ ∃ e ∈ (first :: others).map (·.1), (Key.text e == k) = true := by
      constructor
      · rintro ⟨source', hsource', -, e, he, hk⟩
        cases hsource.symm.trans hsource'
        rw [hends] at he
        exact ⟨e.1, List.mem_map_of_mem he, hk⟩
      · rintro ⟨name, hname, hk⟩
        obtain ⟨e, he, rfl⟩ := List.mem_map.1 hname
        have hpos := List.length_pos_of_ne_nil hmany
        exact ⟨source, hsource, by rw [hends, List.length_cons]; omega, e, hends ▸ he, hk⟩
    rw [hdraws]
    exact portAt_joinEnds_ne_nil

theorem portAt_connectNode {n : Node} (h : connectNode cfg s n = .ok t) (k : Key) :
    t.connections.portAt k mainType 0 ≠ [] ↔ s.connections.portAt k mainType 0 ≠ [] ∨ Draws cfg s k (.feed n) := by
  cases connects_of_eq_ok h with
  | fed hfed =>
    have hnot : ¬ Draws cfg s k (.feed n) := by
      rintro ⟨hopen, htarget, -⟩
      simp [hopen, htarget] at hfed
    exact (or_iff_left hnot).symm
  | unresolved hnone detail =>
    have hnot : ¬ Draws cfg s k (.feed n) := by
      rintro ⟨-, -, left, key, hleft, -⟩
      cases hnone.symm.trans hleft
    exact (or_iff_left hnot).symm
  | connected left key hopen htarget hleft hkey detail =>
    have hdraws : Draws cfg s k (.feed n) ↔ (key == k) = true := by
      constructor
      · rintro ⟨-, -, left', key', hleft', hkey', hk⟩
        cases hleft.symm.trans hleft'
        cases hkey.symm.trans hkey'
        exact hk
      · exact fun hk => ⟨hopen, htarget, left, key, hleft, hkey, hk⟩
    rw [hdraws]
    exact Connections.portAt_connect_ne_nil

theorem portAt_chainNode {n : Node} (h : chainNode cfg (s.nodes.filter fun m => !m.isTrigger) s n = .ok t) (k : Key) :
    t.connections.portAt k mainType 0 ≠ [] ↔ s.connections.portAt k mainType 0 ≠ [] ∨ Draws cfg s k (.chain n) := by
  obtain ⟨key, hkey, hcase⟩ := chains_of_eq_ok h
  cases hcase with
  | led hled =>
    have hnot : ¬ Draws cfg s k (.chain n) := by
      rintro ⟨key', hkey', -, hopen, hout, -⟩
      cases hkey.symm.trans hkey'
      simp [hopen, hout] at hled
    exact (or_iff_left hnot).symm
  | unresolved hnone =>
    have hnot : ¬ Draws cfg s k (.chain n) := by
      rintro ⟨key', -, -, -, -, right, hright⟩
      cases hnone.symm.trans hright
    exact (or_iff_left hnot).symm
  | chained right hclosed hout hright detail =>
    have hdraws : Draws cfg s k (.chain n) ↔ (key == k) = true := by
      constructor
      · rintro ⟨key', hkey', hk, -⟩
        cases hkey.symm.trans hkey'
        exact hk
      · exact fun hk => ⟨key, hkey, hk, hclosed, hout, right, hright⟩
    rw [hdraws]
    exact Connections.portAt_connect_ne_nil

/-- a turn fills the first main port of the sources that it draws an edge from -/
theorem Takes.portAt_ne_nil {task : Task} (h : Takes cfg s task t) (k : Key) :
    t.connections.portAt k mainType 0 ≠ [] ↔ s.connections.portAt k mainType 0 ≠ [] ∨ Draws cfg s k task := by
  cases h with
  | join h => exact portAt_reconverge h k
  | feed h => exact portAt_connectNode h k
  | chain h => exact portAt_chainNode h k

end

/-! ## The whole repair -/

/-- ports of connections before and after a repair that were not given up, for the turns that the repair took -/
theorem extends_of_mend {cfg : BuildConfig} {fields : Fields} {nodes : List Node} {c : Connections} {start s : State}
    (hload : Connections.load (Value.field "connections" fields) = .ok c)
    (hstart : canonicalize fields nodes = .ok start) (hs : mend cfg start = .ok s) :
    start.connections = c.mapPorts (·.filter (sparesTriggers nodes)) ∧
      c.Extends (sparesTriggers nodes) s.connections := by
  obtain ⟨c', hload', -, hconnections, -⟩ := canonicalize_connections hstart
  cases hload.symm.trans hload'
  refine ⟨hconnections, moves_extends (mend_moves hs) ?_⟩
  rw [hconnections]
  exact Connections.extends_filter _ _

/-- a port that was there and empty is so after a repair, unless it is the first main port of a source that some turn
draws an edge from -/
theorem empty_port_of_mend {cfg : BuildConfig} {fields : Fields} {nodes : List Node} {c : Connections} {start s : State}
    (hload : Connections.load (Value.field "connections" fields) = .ok c)
    (hstart : canonicalize fields nodes = .ok start) (hs : mend cfg start = .ok s) {k : Key} {t : String} {i : Nat}
    (hempty : (c.ports k t)[i]? = some []) :
    (s.connections.ports k t)[i]? = some [] ↔
      ¬ (t = mainType ∧ i = 0 ∧ ∃ w task, Turn cfg start w task ∧ Draws cfg w k task) := by
  obtain ⟨hconnections, hextends⟩ := extends_of_mend hload hstart hs
  have hlength : i < (c.ports k t).length := (List.getElem?_eq_some_iff.1 hempty).1
  rw [Connections.getElem?_ports_eq_nil_iff hlength] at hempty
  rw [Connections.getElem?_ports_eq_nil_iff (hlength.trans_le (hextends.length k t))]
  by_cases hplace : t = mainType ∧ i = 0
  · obtain ⟨rfl, rfl⟩ := hplace
    have hbegin : start.connections.portAt k mainType 0 = [] := by
      rw [hconnections, Connections.portAt_mapPorts c rfl, hempty]
      rfl
    have hfilled := mend_brings (fun _ _ _ htakes => htakes.portAt_ne_nil k) hs
    rw [or_iff_right (not_not.2 hbegin)] at hfilled
    simp only [true_and]
    rw [← hfilled, not_not]
  · -- only the first main port gets edges
    obtain ⟨added, hports, hadded⟩ := hextends.ports k t i
    have hnone : added = [] := by
      by_contra hsome
      exact hplace (hadded hsome)
    rw [hports, hempty, hnone]
    exact iff_of_true rfl fun h => hplace ⟨h.1, h.2.1⟩

/-- between connections before and after a repair, the empty ports of switches that are no longer empty are the first
main ports that some turn draws an edge from -/
def FillsDrawn (cfg : BuildConfig) (start : State) (nodes : List Node) (c d : Connections) : Prop :=
  ∀ sw ∈ nodes, sw.isSwitch = true → ∀ k, sw.name.toKey = .ok k → ∀ t i, (c.ports k t)[i]? = some [] →
    ((d.ports k t)[i]? = some [] ↔ ¬ (t = mainType ∧ i = 0 ∧ ∃ w task, Turn cfg start w task ∧ Draws cfg w k task))

/-- **Which empty ports of switches are filled.** A repair that is given up hands the document back. Any other keeps the
empty ports of every switch, except the first main port of a switch that some turn draws an edge from: as an open end of
a branch, as the left neighbour of a node without an incoming edge, or because its own output leads nowhere. -/
theorem empty_ports_of_repaired {cfg : BuildConfig} {fields : Fields} {items : List Value} {r : Repaired}
    (hn : Value.field "nodes" fields = .list items) (h : repair cfg (.object fields) = .ok r) :
    ∃ c start, Connections.load (Value.field "connections" fields) = .ok c ∧
      canonicalize fields (items.filterMap Node.ofValue?) = .ok start ∧
      (¬ r.Completed ∧ r.document = .object fields ∨
        r.Completed ∧ ∃ (after : Fields) (d : Connections), r.document = .object after ∧
          Table.get? (.text "connections") after = some d.toValue ∧
          FillsDrawn cfg start (items.filterMap Node.ofValue?) c d) := by
  have hcompleted := completed_iff h hn
  obtain ⟨start, hstart, ⟨s, hs, rfl⟩ | ⟨kind, hk, rfl⟩⟩ := repair_eq_ok h hn
  · obtain ⟨c, hload, -⟩ := canonicalize_connections hstart
    refine ⟨c, start, hload, hstart, Or.inr ⟨hcompleted.2 ⟨start, s, hstart, hs⟩, written fields s, s.connections, rfl,
      get?_connections_written fields s, ?_⟩⟩
    exact fun _ _ _ _ _ _ _ hempty => empty_port_of_mend hload hstart hs hempty
  · obtain ⟨c, hload, -⟩ := canonicalize_connections hstart
    refine ⟨c, start, hload, hstart, Or.inl ⟨fun hdone => ?_, rfl⟩⟩
    obtain ⟨start', s, hstart', hs⟩ := hcompleted.1 hdone
    cases hstart.symm.trans hstart'
    cases hk.symm.trans hs

/-! ## A port that is filled -/

/-- a main port of a node of a document -/
def portIn (document : Value) (name : String) (i : Nat) : Option Port :=
  match document with
  | .object fields =>
    (Connections.load (Value.field "connections" fields)).toOption.bind fun c => (c.ports (.text name) mainType)[i]?
  | _ => none

/-- a switch whose first port is empty, left of a node that no edge leads to -/
def forkNodes : List Node := [
  batchesNode "1" "Start" "manualTrigger" 0 0 [],
  batchesNode "2" "Route" "switch" 200 0
    [(.text "rules", Parameters.object [("rules", .list [
      Parameters.object [("value2", "a")], Parameters.object [("value2", "b")]])])],
  batchesNode "3" "Store" "noOp" 400 0 [],
  batchesNode "4" "Respond" "respondToWebhook" 400 400 []]

def forkConnections : Connections :=
  (Connections.empty.connect (.text "Start") "Route" 0).addEdge (.text "Route") mainType 1
    (.plain "Respond" mainType 0)

def forkDocument : Fields := [
  (.text "name", .text "Fork"), (.text "nodes", .list (forkNodes.map Node.toValue)),
  (.text "connections", forkConnections.toValue)]

/-- **A repair can fill an empty port of a switch**, with the edge to a node that stands behind it on its row. -/
theorem repair_fills_port :
    portIn (.object forkDocument) "Route" 0 = some [] ∧
      (∃ sw ∈ Document.nodesIn (.object forkDocument), sw.isSwitch = true ∧ sw.name = .text "Route") ∧
      ∃ r, repair .standard (.object forkDocument) = .ok r ∧
        portIn r.document "Route" 0 = some [.plain "Store" mainType 0] := by
  have hruns : ((repair .standard (.object forkDocument)).toOption.any fun r =>
      portIn r.document "Route" 0 == some [.plain "Store" mainType 0]) = true := by
    simp only [repair, mend, connectAll_eq]
    decide +kernel
  have hswitch : ((Document.nodesIn (.object forkDocument)).any fun sw =>
      sw.isSwitch && sw.name.text? == some "Route") = true := by decide +kernel
  obtain ⟨r, hr, hport⟩ := exists_ok_of_any hruns
  obtain ⟨sw, hsw, hboth⟩ := List.any_eq_true.1 hswitch
  rw [Bool.and_eq_true, beq_iff_eq, Value.text?_eq_some] at hboth
  exact ⟨by decide +kernel, ⟨sw, hsw, hboth⟩, r, hr, beq_iff_eq.1 hport⟩

/-- the edge that fills it is drawn by a turn -/
theorem empty_ports_of_repaired_forkDocument :
    Value.field "nodes" forkDocument = .list (forkNodes.map Node.toValue) ∧
      ∃ r c start, repair .standard (.object forkDocument) = .ok r ∧
        Connections.load (Value.field "connections" forkDocument) = .ok c ∧
        canonicalize forkDocument ((forkNodes.map Node.toValue).filterMap Node.ofValue?) = .ok start ∧
        (¬ r.Completed ∧ r.document = .object forkDocument ∨
          r.Completed ∧ ∃ (after : Fields) (d : Connections), r.document = .object after ∧
            Table.get? (.text "connections") after = some d.toValue ∧
            FillsDrawn .standard start ((forkNodes.map Node.toValue).filterMap Node.ofValue?) c d) := by
  have hn : Value.field "nodes" forkDocument = .list (forkNodes.map Node.toValue) := rfl
  obtain ⟨-, -, r, hr, -⟩ := repair_fills_port
  obtain ⟨c, start, hload, hstart, hports⟩ := empty_ports_of_repaired hn hr
  exact ⟨hn, r, c, start, hr, hload, hstart, hports⟩

end Repair

end WorkflowGraph
