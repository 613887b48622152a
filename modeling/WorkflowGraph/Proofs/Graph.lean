import WorkflowGraph.Graph
import WorkflowGraph.Proofs.Connections.Ports
import WorkflowGraph.Proofs.Connections.Reading
/-
The graph of a document against its nodes and connections. A name is a node of the graph when a node of the document has
it, and an arc leads to a name exactly when an edge between two named nodes does.
-/
namespace WorkflowGraph

/-- a text is the tag that it gives -/
theorem Value.toTag_text (s : String) : (Value.text s).toTag = s := by
  unfold toTag
  split
  · rfl
  · rename_i hempty
    have hnil : s = "" := by simpa [isFilled] using hempty
    exact hnil.symm

/-- one of the nodes has a name -/
def Known (nodes : List Node) (s : String) : Prop := ∃ n ∈ nodes, n.name = .text s

theorem known_iff {nodes : List Node} {s : String} : Known nodes s ↔ ∃ n ∈ nodes, n.name.text? = some s := by
  simp only [Known, Value.text?_eq_some]

instance (nodes : List Node) (s : String) : Decidable (Known nodes s) := decidable_of_iff _ known_iff.symm

/-- an edge from a named node leads to a name that a node has -/
def Reached (nodes : List Node) (c : Connections) (s : String) : Prop :=
  Known nodes s ∧ ∃ source, Known nodes source ∧ c.Joins (.text source) s

/-- names are texts that are not blank, and no two nodes share one -/
structure WellNamed (nodes : List Node) : Prop where
  texts : ∀ n ∈ nodes, ∃ s, n.name = .text s ∧ Text.isBlankText s = false
  distinct : (nodes.map Node.name).Nodup

theorem WellNamed.eq_of_name {nodes : List Node} (h : WellNamed nodes) {n m : Node} (hn : n ∈ nodes) (hm : m ∈ nodes)
    (heq : n.name = m.name) : n = m :=
  List.inj_on_of_nodup_map h.distinct hn hm heq

/-- nodes with the names of a list, each once and none blank -/
theorem WellNamed.of_names {nodes : List Node} {names : List String}
    (hnames : nodes.map Node.name = names.map Value.text) (hblank : ∀ s ∈ names, Text.isBlankText s = false)
    (hdistinct : names.Nodup) : WellNamed nodes where
  texts := by
    intro n hn
    obtain ⟨s, hs, hname⟩ := List.mem_map.1 (hnames ▸ List.mem_map_of_mem hn)
    exact ⟨s, hname.symm, hblank s hs⟩
  distinct := by
    rw [hnames]
    exact hdistinct.map fun _ _ h => Value.text.inj h

theorem Known.mono {nodes nodes' : List Node} {s : String} (h : Known nodes s) (hn : nodes ⊆ nodes') :
    Known nodes' s := by
  obtain ⟨n, hmem, hs⟩ := h
  exact ⟨n, hn hmem, hs⟩

/-- more nodes and edges reach more names -/
theorem Reached.mono {nodes nodes' : List Node} {c d : Connections} {s : String} (h : Reached nodes c s)
    (hn : nodes ⊆ nodes') (hc : ∀ source, c.Joins (.text source) s → d.Joins (.text source) s) :
    Reached nodes' d s := by
  obtain ⟨hs, source, hsource, hjoins⟩ := h
  exact ⟨hs.mono hn, source, hsource.mono hn, hc source hjoins⟩

/-- the nodes of a document; what is no object has none -/
def Document.nodesIn : Value → List Node
  | .object fields => nodesOf (Value.field "nodes" fields)
  | _ => []

/-- a document without a list of nodes has no node -/
theorem Document.nodesIn_eq_nil {document : Value}
    (h : ∀ fields items, document = .object fields → Value.field "nodes" fields ≠ .list items) :
    nodesIn document = [] := by
  cases document with
  | object fields =>
    show nodesOf (Value.field "nodes" fields) = []
    cases hn : Value.field "nodes" fields with
    | list items => exact absurd hn (h fields items rfl)
    | _ => rfl
  | _ => rfl

/-- nodes are read back as they were written -/
theorem Document.nodesOf_map_toValue (nodes : List Node) : nodesOf (.list (nodes.map Node.toValue)) = nodes := by
  show (nodes.map Node.toValue).filterMap Node.ofValue? = nodes
  rw [List.filterMap_map]
  exact List.filterMap_some

theorem Document.nodes_of_list {fields : Fields} {items : List Value} (h : Value.field "nodes" fields = .list items) :
    nodes fields = .ok (nodesOf (Value.field "nodes" fields)) := by
  rw [nodes, h]
  rfl

theorem Document.named_of_mem_enter {nodes : List Node} {t : Table String Node}
    (h : ∀ e ∈ t, e.2 ∈ nodes ∧ e.2.name = .text e.1) {n : Node} (hn : n ∈ nodes) :
    ∀ e ∈ enter t n, e.2 ∈ nodes ∧ e.2.name = .text e.1 := by
  unfold enter
  split
  · rename_i name hname
    split
    · exact h
    · exact List.forall_mem_append.2 ⟨h, List.forall_mem_singleton.2 ⟨hn, hname⟩⟩
  · exact h

/-- what is found under a name is a node of that name -/
theorem Document.named_of_get?_byName {nodes : List Node} {s : String} {n : Node}
    (h : Table.get? s (byName nodes) = some n) : n ∈ nodes ∧ n.name = .text s := by
  have run : ∀ later ⊆ nodes, ∀ t : Table String Node, (∀ e ∈ t, e.2 ∈ nodes ∧ e.2.name = .text e.1) →
      ∀ e ∈ later.foldl enter t, e.2 ∈ nodes ∧ e.2.name = .text e.1 := by
    intro later
    induction later with
    | nil => exact fun _ t ht => ht
    | cons m later ih =>
      intro hlater t ht
      rw [List.cons_subset] at hlater
      exact ih hlater.2 _ (named_of_mem_enter ht hlater.1)
  obtain ⟨k, hk, hmem⟩ := Table.exists_mem_of_get? h
  obtain rfl : k = s := by simpa using hk
  exact run nodes (List.Subset.refl _) [] (by simp) _ hmem

/-- every node with a text for a name can be found under it -/
theorem Document.has_byName {nodes : List Node} {s : String} : Table.has s (byName nodes) = true ↔ Known nodes s := by
  have henter : ∀ (t : Table String Node) n, Table.has s (enter t n) = true ↔ Table.has s t = true ∨ n.name = .text s := by
    intro t n
    unfold enter
    split
    · rename_i name hname
      rw [hname, Value.text.injEq]
      split
      · rename_i hhas
        refine ⟨Or.inl, ?_⟩
        rintro (h | rfl)
        · exact h
        · exact hhas
      · simp [Table.has]
    · rename_i hname
      exact ⟨Or.inl, fun h => h.resolve_right (hname s)⟩
  have hrun : ∀ t : Table String Node, Table.has s (nodes.foldl enter t) = true ↔ Table.has s t = true ∨ Known nodes s := by
    induction nodes with
    | nil => simp [Known]
    | cons n nodes ih =>
      intro t
      rw [List.foldl_cons, ih, henter, or_assoc]
      simp only [Known, List.mem_cons, exists_eq_or_imp]
  rw [byName, hrun]
  simp [Table.has]

namespace Graph

theorem mem_addNode {names : List String} {s t : String} : t ∈ addNode names s ↔ t ∈ names ∨ t = s := by
  unfold addNode
  split
  · rename_i h
    have hs : s ∈ names := by simpa using h
    constructor
    · exact Or.inl
    · rintro (ht | rfl)
      · exact ht
      · exact hs
  · simp

theorem mem_addName {before after : List String} {n : Node} (h : addName before n = .ok after) {s : String} :
    s ∈ after ↔ s ∈ before ∨ n.name = .text s := by
  unfold addName at h
  split at h
  · rename_i t ht
    split at h
    · cases h
      rw [mem_addNode, ht]
      simp [eq_comm]
    · cases h
  · rename_i hne
    cases h
    constructor
    · exact Or.inl
    · rintro (hs | hs)
      · exact hs
      · exact absurd hs (hne s)

/-- the nodes of a graph are the names that are texts -/
theorem mem_nodeNames {nodes : List Node} {names : List String} (h : nodeNames nodes = .ok names) {s : String} :
    s ∈ names ↔ Known nodes s := by
  have run : ∀ (nodes : List Node) (before after : List String), nodes.foldlM addName before = .ok after →
      (s ∈ after ↔ s ∈ before ∨ Known nodes s) := by
    intro nodes
    induction nodes with
    | nil =>
      intro before after h
      cases h
      simp [Known]
    | cons n nodes ih =>
      intro before after h
      rw [List.foldlM_cons] at h
      obtain ⟨next, hnext, h⟩ := bind_eq_ok.1 h
      rw [ih next after h, mem_addName hnext, Known, Known, List.exists_mem_cons_iff, or_assoc]
  simpa using run nodes [] names h

/-! ## Arcs -/

theorem exists_target_addArc {a : Arc} {arcs : List Arc} {t : String} :
    (∃ b ∈ addArc a arcs, b.target = t) ↔ a.target = t ∨ ∃ b ∈ arcs, b.target = t := by
  induction arcs with
  | nil => simp [addArc]
  | cons b arcs ih =>
    unfold addArc
    split
    · rename_i h
      simp [h.2]
    · rw [List.exists_mem_cons_iff, ih, List.exists_mem_cons_iff]
      tauto

theorem exists_target_foldl_addArc {l arcs : List Arc} {t : String} :
    (∃ b ∈ l.foldl (fun arcs a => addArc a arcs) arcs, b.target = t) ↔
      (∃ a ∈ l, a.target = t) ∨ ∃ b ∈ arcs, b.target = t := by
  induction l generalizing arcs with
  | nil => simp
  | cons a l ih =>
    rw [List.foldl_cons, ih, exists_target_addArc, List.exists_mem_cons_iff, or_left_comm, or_assoc]

/-- an arc stands for an edge between two of the names -/
theorem arcOf?_eq_some {names : List String} {l : Link} {a : Arc} :
    arcOf? names l = some a ↔
      ∃ s ∈ names, l.source = .text s ∧ l.edge.node ∈ names ∧ a = ⟨s, l.edge.node, l.port, l.edge.index⟩ := by
  unfold arcOf?
  split
  · rename_i s hs
    rw [hs]
    split
    · rename_i h
      rw [Bool.and_eq_true, List.contains_iff_mem, List.contains_iff_mem] at h
      simp [h.1, h.2, eq_comm]
    · rename_i h
      rw [Bool.and_eq_true, List.contains_iff_mem, List.contains_iff_mem] at h
      constructor
      · intro h'
        cases h'
      · rintro ⟨t, ht, heq, hnode, -⟩
        cases heq
        exact absurd ⟨ht, hnode⟩ h
  · rename_i hne
    constructor
    · intro h'
      cases h'
    · rintro ⟨t, -, heq, -⟩
      exact absurd heq (hne t)

/-- an edge of the graph of a document leads to a name exactly when an edge between its nodes does -/
theorem ofDocument_reached {document : Fields} {g : Graph} {nodes : List Node} {c : Connections}
    (h : ofDocument document = .ok g) (hn : Document.nodes document = .ok nodes)
    (hc : Connections.load (Value.field "connections" document) = .ok c) (s : String) :
    (g.hasNode s = true ∧ 0 < g.inDegree s) ↔ Reached nodes c s := by
  obtain ⟨nodes', hnodes', h⟩ := bind_eq_ok.1 h
  obtain ⟨names, hnames, h⟩ := bind_eq_ok.1 h
  obtain ⟨c', hc', h⟩ := bind_eq_ok.1 h
  cases hn.symm.trans hnodes'
  cases hc.symm.trans hc'
  cases h
  have hlinks := (Connections.load_form hc).1.toKeyed
  unfold hasNode inDegree
  rw [List.contains_iff_mem, List.countP_pos_iff]
  simp only [decide_eq_true_eq]
  rw [exists_target_foldl_addArc, mem_nodeNames hnames, Reached]
  refine and_congr_right fun hs => ?_
  simp only [List.not_mem_nil, false_and, exists_false, or_false, List.mem_filterMap]
  constructor
  · rintro ⟨a, ⟨l, hl, ha⟩, rfl⟩
    obtain ⟨source, hsource, hls, hnode, rfl⟩ := arcOf?_eq_some.1 ha
    exact ⟨source, (mem_nodeNames hnames).1 hsource, hlinks.exists_link_iff.1 ⟨l, hl, hls, rfl⟩⟩
  · rintro ⟨source, hsource, hjoin⟩
    obtain ⟨l, hl, hls, rfl⟩ := hlinks.exists_link_iff.2 hjoin
    exact ⟨_, ⟨l, hl, arcOf?_eq_some.2 ⟨source, (mem_nodeNames hnames).2 hsource, hls,
      (mem_nodeNames hnames).2 hs, rfl⟩⟩, rfl⟩

end Graph

end WorkflowGraph
