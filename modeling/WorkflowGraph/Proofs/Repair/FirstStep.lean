import WorkflowGraph.Proofs.Connections.Ports
import WorkflowGraph.Proofs.Connections.Reading
import WorkflowGraph.Proofs.Trace
import WorkflowGraph.Repair
/-
The first step of a repair. It reads the connections, which puts them in normal form, and drops the edges into triggers:
every port keeps its other edges in their order. It counts a fix for each edge it drops.

- `canonicalize_connections`: the connections after the first step.
- `Counted`: without a fix, nothing has changed.
-/
namespace WorkflowGraph

/-! ## Decisions -/

/-- no decision was to give up -/
def Trace.Unaborted (t : Trace) : Prop := ∀ e ∈ t, e.rule ≠ "aborted"

namespace Repair

/-- the rules for the first step -/
def firstRules : List String := "connections-normalized" :: "trigger-incoming-dropped" :: Connections.readingRules

/-! ## Triggers -/

/-- the names of the triggers, as far as these are texts -/
def triggerNames (nodes : List Node) : List String := (nodes.filter Node.isTrigger).filterMap fun n => n.name.text?

/-- an edge does not lead to a trigger -/
def sparesTriggers (nodes : List Node) (e : Edge) : Bool := !(triggerNames nodes).contains e.node

theorem mem_triggerNames {nodes : List Node} {s : String} :
    s ∈ triggerNames nodes ↔ ∃ n ∈ nodes, n.isTrigger = true ∧ n.name = .text s := by
  simp only [triggerNames, List.mem_filterMap, List.mem_filter, Value.text?_eq_some, and_assoc]

/-! ## Fixes -/

/-- fixes are only added, and without a new one nodes and connections are as before -/
structure Counted (s t : State) : Prop where
  le : s.fixes ≤ t.fixes
  nodes : t.fixes = s.fixes → t.nodes = s.nodes
  connections : t.fixes = s.fixes → t.connections = s.connections

theorem Counted.refl (s : State) : Counted s s := ⟨Nat.le_refl _, fun _ => rfl, fun _ => rfl⟩

theorem Counted.trans {s t u : State} (h : Counted s t) (h' : Counted t u) : Counted s u := by
  have hle := h.le
  have hle' := h'.le
  refine ⟨by omega, fun heq => ?_, fun heq => ?_⟩
  · rw [h'.nodes (by omega), h.nodes (by omega)]
  · rw [h'.connections (by omega), h.connections (by omega)]

/-- a step that counts fixes may change everything -/
theorem counted_of_lt {s t : State} (h : s.fixes < t.fixes) : Counted s t :=
  ⟨by omega, fun heq => by omega, fun heq => by omega⟩

/-! ## Edges into triggers -/

theorem nodes_dropIncoming (s : State) (n : Node) : (dropIncoming s n).nodes = s.nodes := by
  unfold dropIncoming
  split
  · dsimp only
    split
    · rfl
    · rfl
  · rfl

/-- the edges into a trigger are dropped, those into another node stay -/
theorem connections_dropIncoming (s : State) (n : Node) :
    (dropIncoming s n).connections = s.connections.mapPorts (·.filter (sparesTriggers [n])) := by
  have keeps : triggerNames [n] = [] → s.connections.mapPorts (·.filter (sparesTriggers [n])) = s.connections := by
    intro hnone
    refine Connections.mapPorts_eq_self fun _ _ _ _ p _ => ?_
    simp [sparesTriggers, hnone]
  unfold dropIncoming
  split
  · rename_i name htrigger hname
    have hremove : s.connections.mapPorts (·.filter (sparesTriggers [n])) = s.connections.removeEdgesTo name := by
      have hnames : triggerNames [n] = [name] := by simp [triggerNames, htrigger, hname, Value.text?]
      have hspares : sparesTriggers [n] = fun e => e.node != name := by
        funext e
        rw [Bool.eq_iff_iff]
        simp [sparesTriggers, hnames]
      rw [hspares]
      rfl
    rw [hremove]
    dsimp only
    split
    · rename_i hcount
      exact (Connections.removeEdgesTo_eq_self hcount).symm
    · rfl
  · rename_i hother
    rw [keeps]
    rw [List.eq_nil_iff_forall_not_mem]
    intro name hmem
    obtain ⟨m, hm, htrigger, hname⟩ := mem_triggerNames.1 hmem
    rw [List.mem_singleton.1 hm] at htrigger hname
    exact hother name htrigger hname

theorem counted_dropIncoming (s : State) (n : Node) : Counted s (dropIncoming s n) := by
  unfold dropIncoming
  split
  · dsimp only
    split
    · exact Counted.refl s
    · rename_i hcount
      refine counted_of_lt ?_
      show s.fixes < s.fixes + _
      omega
  · exact Counted.refl s

theorem under_dropIncoming {s : State} (h : s.trace.Under firstRules) (n : Node) :
    (dropIncoming s n).trace.Under firstRules := by
  unfold dropIncoming
  split
  · dsimp only
    split
    · exact h
    · exact h.append (Trace.under_event (by decide))
  · exact h

section

variable (nodes : List Node) (s : State)

theorem nodes_foldl_dropIncoming : (nodes.foldl dropIncoming s).nodes = s.nodes := by
  induction nodes generalizing s with
  | nil => rfl
  | cons n nodes ih => rw [List.foldl_cons, ih, nodes_dropIncoming]

theorem counted_foldl_dropIncoming : Counted s (nodes.foldl dropIncoming s) := by
  induction nodes generalizing s with
  | nil => exact Counted.refl s
  | cons n nodes ih => exact (counted_dropIncoming s n).trans (ih _)

theorem under_foldl_dropIncoming (h : s.trace.Under firstRules) :
    (nodes.foldl dropIncoming s).trace.Under firstRules := by
  induction nodes generalizing s with
  | nil => exact h
  | cons n nodes ih => exact ih _ (under_dropIncoming h n)

theorem connections_foldl_dropIncoming :
    (nodes.foldl dropIncoming s).connections = s.connections.mapPorts (·.filter (sparesTriggers nodes)) := by
  induction nodes generalizing s with
  | nil => exact (Connections.mapPorts_eq_self fun _ _ _ _ p _ => by simp [sparesTriggers, triggerNames]).symm
  | cons n nodes ih =>
    have hspares : ∀ e, sparesTriggers (n :: nodes) e = (sparesTriggers nodes e && sparesTriggers [n] e) := by
      intro e
      have hnames : triggerNames (n :: nodes) = triggerNames [n] ++ triggerNames nodes := by
        unfold triggerNames
        rw [← List.filterMap_append, ← List.filter_append]
        rfl
      rw [sparesTriggers, hnames, sparesTriggers, sparesTriggers, ← Bool.not_or, Bool.or_comm]
      simp
    rw [List.foldl_cons, ih, connections_dropIncoming, Connections.mapPorts_mapPorts]
    simp only [List.filter_filter]
    congr
    funext p
    congr
    funext e
    exact hspares e |>.symm

end

/-! ## The whole step -/

/-- the connections that were read, then the edges into one trigger after another dropped -/
theorem canonicalize_eq_ok {document : Fields} {nodes : List Node} {s : State}
    (h : canonicalize document nodes = .ok s) :
    ∃ start, Connections.load (Value.field "connections" document) = .ok start.connections ∧ start.nodes = nodes ∧
      start.trace.Under firstRules ∧ s = nodes.foldl dropIncoming start := by
  obtain ⟨normal, -, h⟩ := bind_eq_ok.1 h
  obtain ⟨c, hc, h⟩ := bind_eq_ok.1 h
  cases h
  have hreading : Trace.Under firstRules (Connections.normalizeEvents (Value.field "connections" document)) :=
    (Connections.under_normalizeEvents _).mono (by decide)
  refine ⟨_, ?_, ?_, Trace.Under.append ?_ hreading, rfl⟩
  · split <;> exact hc
  · split <;> rfl
  · split
    · exact Trace.under_nil _
    · exact Trace.under_event (by decide)

/-- the first step decides under its rules -/
theorem under_canonicalize {document : Fields} {nodes : List Node} {s : State}
    (h : canonicalize document nodes = .ok s) : s.trace.Under firstRules := by
  obtain ⟨start, -, -, htrace, rfl⟩ := canonicalize_eq_ok h
  exact under_foldl_dropIncoming _ _ htrace

/-- the connections after the first step are those that were read, without the edges into triggers -/
theorem canonicalize_connections {document : Fields} {nodes : List Node} {s : State}
    (h : canonicalize document nodes = .ok s) :
    ∃ c, Connections.load (Value.field "connections" document) = .ok c ∧ s.nodes = nodes ∧
      s.connections = c.mapPorts (·.filter (sparesTriggers nodes)) ∧ (s.fixes = 0 → s.connections = c) := by
  obtain ⟨start, hload, rfl, -, rfl⟩ := canonicalize_eq_ok h
  refine ⟨start.connections, hload, nodes_foldl_dropIncoming _ _, connections_foldl_dropIncoming _ _, fun hfixes => ?_⟩
  have hcounted := counted_foldl_dropIncoming start.nodes start
  have hle := hcounted.le
  exact hcounted.connections (by omega)

end Repair

end WorkflowGraph
