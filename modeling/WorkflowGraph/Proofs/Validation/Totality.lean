import WorkflowGraph.Proofs.Connections.Descriptors
import WorkflowGraph.Proofs.Rows
import WorkflowGraph.Proofs.Validation.Issues
/-
When a document can be checked. The checks read whatever they find, with a few exceptions: names that are lists or
objects, fields of a node that a graph keeps for itself, edges with an infinite input, parameters of a switch that are
neither an object nor empty, and numbers that are too large for a place when a neighbour is looked for.

- `succeeds_validate_iff`: a document has a report exactly when it has none of these.
-/
namespace WorkflowGraph

/-! ## Graphs -/

namespace Graph

theorem succeeds_addName_iff {names : List String} {n : Node} :
    Succeeds (addName names n) ↔ ((∃ s, n.name = .text s) → carries n = true) := by
  unfold addName
  split
  · rename_i s hs
    split
    · rename_i hcarries
      exact iff_of_true (succeeds_ok _) fun _ => hcarries
    · rename_i hnot
      exact iff_of_false (not_succeeds_error _) fun h => hnot (h ⟨s, hs⟩)
  · rename_i hnone
    exact iff_of_true (succeeds_ok _) fun ⟨s, hs⟩ => absurd hs (hnone s)

theorem succeeds_nodeNames_iff {nodes : List Node} :
    Succeeds (nodeNames nodes) ↔ ∀ n ∈ nodes, (∃ s, n.name = .text s) → carries n = true :=
  succeeds_foldlM_of_iff fun _ _ => succeeds_addName_iff

theorem succeeds_ofDocument_iff {document : Fields} {nodes : List Node} {c : Connections}
    (hn : Document.nodes document = .ok nodes) (hc : Connections.load (Value.field "connections" document) = .ok c) :
    Succeeds (ofDocument document) ↔ Succeeds (nodeNames nodes) := by
  rw [ofDocument, hn, hc]
  show Succeeds (nodeNames nodes >>= _) ↔ _
  rw [succeeds_bind_iff]
  exact exists_congr fun _ => and_iff_left (succeeds_ok _)

end Graph

namespace Validation

/-! ## Single nodes -/

/-- the rules of a switch can be counted when its parameters are an object or are not filled -/
theorem succeeds_declaredBranches_iff {n : Node} :
    Succeeds (declaredBranches n) ↔
      (∃ params, n.get "parameters" = .object params) ∨ (n.get "parameters").isFilled = false := by
  unfold declaredBranches
  split
  · rename_i params hparams
    refine iff_of_true ?_ (Or.inl ⟨params, hparams⟩)
    split
    · split <;> exact succeeds_ok _
    · exact succeeds_ok _
  · rename_i v hnot
    split
    · rename_i hfilled
      refine iff_of_false (not_succeeds_error _) ?_
      rintro (⟨params, hparams⟩ | hempty)
      · exact hnot params hparams
      · rw [hempty] at hfilled
        cases hfilled
    · rename_i hempty
      exact iff_of_true (succeeds_ok _) (Or.inr (by simpa using hempty))

theorem succeeds_switchIssues_iff {c : Connections} {x : Named} :
    Succeeds (switchIssues c x) ↔ (x.node.isSwitch = true → Succeeds (declaredBranches x.node)) := by
  unfold switchIssues
  split
  · rename_i hnot
    rw [Bool.not_eq_true'] at hnot
    exact iff_of_true (succeeds_ok _) fun hswitch => by simp [hnot] at hswitch
  · rename_i hswitch
    rw [Bool.not_eq_true', Bool.not_eq_false] at hswitch
    simp only [hswitch, true_implies]
    rw [succeeds_bind_iff]
    exact exists_congr fun _ => and_iff_left (succeeds_ok _)

/-- an output can be checked when a follower can be looked for, as far as one is looked for at all -/
theorem succeeds_outgoingIssues_iff {cfg : BuildConfig} {c : Connections} {candidates : List Node}
    {disconnected : List Key} {x : Named} (hnames : ∀ m ∈ candidates, Succeeds m.name.toKey) :
    Succeeds (outgoingIssues cfg c candidates disconnected x) ↔
      (x.node.isConcluding = false → c.hasOutgoing x.key = false →
        Succeeds (Rows.successor id (.whole cfg.rowTolerance) (.whole cfg.rowMinDx) x.node candidates)) := by
  unfold outgoingIssues
  split
  · rename_i hclosed
    refine iff_of_true (succeeds_ok _) fun hopen hout => ?_
    simp [hopen, hout] at hclosed
  · rename_i hopen
    rw [Bool.or_eq_true, not_or, Bool.not_eq_true, Bool.not_eq_true] at hopen
    simp only [hopen.1, hopen.2, true_implies]
    rw [succeeds_bind_iff]
    constructor
    · rintro ⟨found, hfound, -⟩
      exact ⟨found, hfound⟩
    · rintro ⟨found, hfound⟩
      refine ⟨found, hfound, ?_⟩
      cases found with
      | none => exact succeeds_ok _
      | some follower =>
        obtain ⟨key, hkey⟩ := hnames follower (Rows.mem_of_successor hfound)
        refine succeeds_bind_iff.2 ⟨key, hkey, ?_⟩
        split <;> exact succeeds_ok _

/-! ## The report -/

/-- nodes and connections of a document that every check can read -/
structure Readable (cfg : BuildConfig) (nodes : List Node) (connections : Value) : Prop where
  /-- no name is a list or an object -/
  names : ∀ n ∈ nodes, Succeeds n.name.toKey
  /-- no node with a text for a name has a field that the graph keeps for itself -/
  fields : ∀ n ∈ nodes, (∃ s, n.name = .text s) → Graph.carries n = true
  /-- no edge has an infinite input -/
  inputs : ∀ v ∈ Connections.descriptors connections, ¬ Connections.Endless v
  /-- the parameters of switches are objects or empty -/
  switches : ∀ n ∈ nodes, n.isSwitch = true →
    (∃ params, n.get "parameters" = .object params) ∨ (n.get "parameters").isFilled = false
  /-- where an output leads nowhere and must not, the places that it is compared with are in range -/
  places : ∀ c, Connections.load connections = .ok c → ∀ n ∈ nodes, n.isConcluding = false →
    (∀ key, n.name.toKey = .ok key → c.hasOutgoing key = false) →
      Succeeds n.place ∧ ∀ m ∈ nodes, m.isTrigger = false → (m.name == n.name) = false →
        Succeeds m.place ∧ Succeeds (Numeric.whole cfg.rowMinDx).toDouble

/-- the checks of a document with nodes, one after another -/
theorem succeeds_nodeIssues_iff {cfg : BuildConfig} {document : Fields} {nodes : List Node} :
    Succeeds (nodeIssues cfg document nodes) ↔ ∃ ns g c, named nodes = .ok ns ∧ Graph.ofDocument document = .ok g ∧
      Connections.load (Value.field "connections" document) = .ok c ∧ (∀ x ∈ ns, Succeeds (switchIssues c x)) ∧
      ∀ x ∈ ns, Succeeds (outgoingIssues cfg c (followers ns) (disconnectedKeys g ns) x) := by
  unfold nodeIssues
  simp only [← succeeds_mapM_iff]
  constructor
  · intro h
    obtain ⟨ns, hns, h⟩ := succeeds_bind_iff.1 h
    obtain ⟨g, hg, h⟩ := succeeds_bind_iff.1 h
    obtain ⟨c, hc, h⟩ := succeeds_bind_iff.1 h
    obtain ⟨switches, hswitches, h⟩ := succeeds_bind_iff.1 h
    obtain ⟨outgoing, houtgoing, -⟩ := succeeds_bind_iff.1 h
    exact ⟨ns, g, c, hns, hg, hc, ⟨switches, hswitches⟩, outgoing, houtgoing⟩
  · rintro ⟨ns, g, c, hns, hg, hc, ⟨switches, hswitches⟩, outgoing, houtgoing⟩
    refine succeeds_bind_iff.2 ⟨ns, hns, succeeds_bind_iff.2 ⟨g, hg, succeeds_bind_iff.2 ⟨c, hc, ?_⟩⟩⟩
    exact succeeds_bind_iff.2 ⟨switches, hswitches, succeeds_bind_iff.2 ⟨outgoing, houtgoing, succeeds_ok _⟩⟩

section

variable {nodes : List Node} {ns : List Named} (hns : named nodes = .ok ns) (c : Connections)

include hns

/-- all switches can be checked when their parameters can be read -/
theorem forall_succeeds_switchIssues_iff :
    (∀ x ∈ ns, Succeeds (switchIssues c x)) ↔ ∀ n ∈ nodes, n.isSwitch = true →
      (∃ params, n.get "parameters" = .object params) ∨ (n.get "parameters").isFilled = false := by
  rw [← (named_spec hns).1, List.forall_mem_map]
  simp only [succeeds_switchIssues_iff, succeeds_declaredBranches_iff]

/-- all outputs can be checked when the places that matter are in range -/
theorem forall_succeeds_outgoingIssues_iff {cfg : BuildConfig} {disconnected : List Key} :
    (∀ x ∈ ns, Succeeds (outgoingIssues cfg c (followers ns) disconnected x)) ↔
      ∀ n ∈ nodes, n.isConcluding = false → (∀ key, n.name.toKey = .ok key → c.hasOutgoing key = false) →
        Succeeds n.place ∧ ∀ m ∈ nodes, m.isTrigger = false → (m.name == n.name) = false →
          Succeeds m.place ∧ Succeeds (Numeric.whole cfg.rowMinDx).toDouble := by
  obtain ⟨hnodes, hkeys⟩ := named_spec hns
  have hnames : ∀ m ∈ followers ns, Succeeds m.name.toKey := by
    intro m hm
    obtain ⟨x, hx, rfl⟩ := List.mem_map.1 hm
    exact ⟨x.key, hkeys x (List.mem_of_mem_filter hx)⟩
  rw [← hnodes, List.forall_mem_map]
  refine forall₂_congr fun x hx => ?_
  have hout : (∀ key, x.node.name.toKey = .ok key → c.hasOutgoing key = false) ↔ c.hasOutgoing x.key = false := by
    rw [hkeys x hx]
    simp
  rw [succeeds_outgoingIssues_iff hnames, hout, Rows.succeeds_successor_iff, followers_eq]
  simp only [List.mem_filter, Bool.not_eq_true', and_imp]
  rfl

end

/-- a document with nodes is checked when every check can read what it asks for -/
theorem succeeds_nodeIssues_iff_readable {cfg : BuildConfig} {document : Fields} {nodes : List Node}
    (hn : Document.nodes document = .ok nodes) :
    Succeeds (nodeIssues cfg document nodes) ↔ Readable cfg nodes (Value.field "connections" document) := by
  rw [succeeds_nodeIssues_iff]
  constructor
  · rintro ⟨ns, g, c, hns, hg, hc, hswitches, houtgoing⟩
    refine ⟨?_, ?_, Connections.succeeds_load_iff.1 ⟨c, hc⟩, (forall_succeeds_switchIssues_iff hns c).1 hswitches, ?_⟩
    · exact fun n hn => succeeds_map_iff.1 (succeeds_mapM_iff.1 ⟨ns, hns⟩ n hn)
    · exact Graph.succeeds_nodeNames_iff.1 ((Graph.succeeds_ofDocument_iff hn hc).1 ⟨g, hg⟩)
    · intro c' hc'
      cases hc.symm.trans hc'
      exact (forall_succeeds_outgoingIssues_iff hns c).1 houtgoing
  · intro h
    obtain ⟨ns, hns⟩ : Succeeds (named nodes) := succeeds_mapM_iff.2 fun n hn => succeeds_map_iff.2 (h.names n hn)
    obtain ⟨c, hc⟩ := Connections.succeeds_load_iff.2 h.inputs
    obtain ⟨g, hg⟩ := (Graph.succeeds_ofDocument_iff hn hc).2 (Graph.succeeds_nodeNames_iff.2 h.fields)
    exact ⟨ns, g, c, hns, hg, hc, (forall_succeeds_switchIssues_iff hns c).2 h.switches,
      (forall_succeeds_outgoingIssues_iff hns c).2 (h.places c hc)⟩

/-- **When a document can be checked.** What is no object always has a report. -/
theorem succeeds_validate_iff {cfg : BuildConfig} {document : Value} :
    Succeeds (validate cfg document) ↔ ∀ fields, document = .object fields → Schema.keysAreTexts fields = true ∧
      (Document.nodesIn document ≠ [] →
        Readable cfg (Document.nodesIn document) (Value.field "connections" fields)) := by
  cases document with
  | object fields =>
    simp only [Value.object.injEq, forall_eq']
    show _ ↔ _ ∧ (Document.nodesOf (Value.field "nodes" fields) ≠ [] →
      Readable cfg (Document.nodesOf (Value.field "nodes" fields)) _)
    simp only [validate]
    split
    · rename_i hkeys
      rw [Bool.not_eq_true'] at hkeys
      exact iff_of_false (not_succeeds_error _) fun h => by simp [hkeys] at h
    · rename_i hkeys
      rw [Bool.not_eq_true', Bool.not_eq_false] at hkeys
      cases hn : Document.nodesOf (Value.field "nodes" fields) with
      | nil => exact iff_of_true (succeeds_ok _) ⟨hkeys, fun h => absurd rfl h⟩
      | cons n rest =>
        have hlist : Document.nodes fields = .ok (n :: rest) := by
          cases hv : Value.field "nodes" fields with
          | list items => rw [Document.nodes_of_list hv, hn]
          | _ =>
            rw [hv] at hn
            cases hn
        show Succeeds ((nodeIssues cfg fields (n :: rest)).map _) ↔ _
        rw [succeeds_map_iff, succeeds_nodeIssues_iff_readable hlist]
        exact ⟨fun h => ⟨hkeys, fun _ => h⟩, fun h => h.2 (List.cons_ne_nil _ _)⟩
  | _ => exact iff_of_true (succeeds_ok _) fun fields h => by cases h

end Validation

end WorkflowGraph
