import WorkflowGraph.Proofs.Connections.Lines
import WorkflowGraph.Proofs.Repair.Improvement
/-
The shape of a repaired document. Merge nodes have the shape of nodes, and new edges leave from nodes. So as long as
the names of nodes are without line ends, which would make them no names for sources, a document of the right shape
keeps it.

- `lines_of_mend`: names and sources stay lines of text.
- `shape_written`: a repaired document of the right shape.
-/
namespace WorkflowGraph

namespace Repair

/-! ## Lines of text -/

/-- names of nodes have no line ends, and sources and port types are lines of text -/
structure Lines (s : State) : Prop where
  names : ∀ n ∈ s.nodes, ∀ name, n.name = .text name → OneLine name
  connections : s.connections.Lined

/-- a proper name without a line end is a line of text -/
theorem Lines.isLine {s : State} (h : Lines s) (hw : WellNamed s.nodes) {n : Node} (hn : n ∈ s.nodes) {name : String}
    (hname : n.name = .text name) : isLine name = true := by
  obtain ⟨name', hname', hblank⟩ := hw.texts n hn
  cases hname.symm.trans hname'
  exact isLine_of_oneLine (Text.ne_empty_of_not_blank hblank) (h.names n hn name hname)

/-- an edge from a node -/
theorem Lines.connect {s : State} (h : Lines s) (hw : WellNamed s.nodes) {n : Node} (hn : n ∈ s.nodes) {key : Key}
    (hkey : n.name.toKey = .ok key) (target : String) (count : Nat) (rule : String) (detail : List (String × Value)) :
    Lines (State.fixed { s with connections := s.connections.connect key target 0 } count rule detail) := by
  obtain ⟨name, hname, -⟩ := hw.texts n hn
  rw [hname, Value.toKey_text] at hkey
  cases hkey
  exact ⟨h.names, h.connections.connect (h.isLine hw hn hname) _ _⟩

theorem lined_joinEnds {c : Connections} (h : c.Lined) (merge : String) (i : Nat) {ends : List String}
    (hends : ∀ e ∈ ends, isLine e = true) : (joinEnds c merge i ends).Lined := by
  induction ends generalizing c i with
  | nil => exact h
  | cons e ends ih =>
    rw [List.forall_mem_cons] at hends
    exact ih (h.connect hends.1 _ _) _ hends.2

/-- branches joined in a merge node, whose name comes from that of the switch -/
theorem Lines.reconverge {cfg : BuildConfig} {s t : State} {registry registry' : NameRegistry} {sw : Node}
    (h : Lines s) (hw : WellNamed s.nodes) (hsw : sw ∈ s.nodes)
    (hstep : reconverge cfg (s, registry) sw = .ok (t, registry')) : Lines t := by
  obtain ⟨source, hsource, hcase⟩ := reconverges_of_eq_ok hstep
  cases hcase with
  | alone detail hfew => exact ⟨h.names, h.connections⟩
  | joined first others origin place right spacing detail hends hmany horigin hright hspacing hplace =>
    obtain ⟨name, hname, -⟩ := hw.texts sw hsw
    rw [hname, Value.toKey_text] at hsource
    cases hsource
    have hwanted : OneLine ("Merge " ++ (Key.text name).toText ++ " Results") :=
      oneLine_append (oneLine_append (by decide +kernel) (h.names sw hsw name hname)) (by decide +kernel)
    constructor
    · refine List.forall_mem_append.2 ⟨h.names, List.forall_mem_singleton.2 fun merge hmerge => ?_⟩
      rw [name_mergeNode] at hmerge
      cases hmerge
      exact registry.oneLine_freshName hwanted
    · refine lined_joinEnds h.connections _ _ fun e he => ?_
      obtain ⟨p, hp, rfl⟩ := List.mem_map.1 he
      obtain ⟨hn, hname⟩ := named_of_mem_openEnds (hends ▸ hp)
      exact h.isLine hw hn hname

theorem Lines.connectNode {cfg : BuildConfig} {s t : State} {n : Node} (h : Lines s) (hw : WellNamed s.nodes)
    (hstep : connectNode cfg s n = .ok t) : Lines t := by
  cases connects_of_eq_ok hstep with
  | fed hfed => exact h
  | unresolved hnone detail => exact ⟨h.names, h.connections⟩
  | connected left key hopen htarget hleft hkey detail =>
    exact h.connect hw (Rows.mem_of_predecessor hleft) hkey _ _ _ _

theorem Lines.chainNode {cfg : BuildConfig} {candidates : List Node} {s t : State} {n : Node} (h : Lines s)
    (hw : WellNamed s.nodes) (hn : n ∈ s.nodes) (hstep : chainNode cfg candidates s n = .ok t) : Lines t := by
  obtain ⟨key, hkey, hcase⟩ := chains_of_eq_ok hstep
  cases hcase with
  | led hled => exact h
  | unresolved hnone => exact h
  | chained right hclosed hout hright detail => exact h.connect hw hn hkey _ _ _ _

/-- **Names and sources stay lines of text.** -/
theorem lines_of_mend {cfg : BuildConfig} {s t : State} (hw : WellNamed s.nodes) (hs : Lines s)
    (h : mend cfg s = .ok t) : Lines t :=
  mend_induction hw h hs
    (fun _ _ _ _ _ hnamed _ hsw hstep hold => hold.reconverge hnamed hsw hstep)
    (fun _ _ _ hnamed _ hstep hold => hold.connectNode hnamed hstep)
    fun _ _ _ _ hnamed hn _ hstep hold => hold.chainNode hnamed hn hstep

/-! ## The document -/

/-- a merge node has the shape of a node -/
theorem shape_mergeNode (id : String) {name : String} (hname : name ≠ "") (x y : Double) (path : List PathStep) :
    Schema.node.violations path (mergeNode id name x y).toValue = [] := by
  have htag : isTypeTag (Catalog.fullTag "merge") = true := by decide +kernel
  simp [Schema.node, Schema.ofType, mergeNode, Node.toValue, Schema.violations, rulesViolations, keepsType,
    SchemaRule.messages, SchemaRule.inner, propertyViolations, SchemaType.admits, Table.get?, Table.has,
    Key.text_beq_text, htag, hname]

/-- the nodes of a list of the right shape, and merge nodes behind them -/
theorem nodeList_violations_append {path : List PathStep} {items : List Value} {added : List Node}
    (h : Schema.nodeList.violations path (.list items) = [])
    (hadded : ∀ n ∈ added, ∃ id name x y, n = mergeNode id name x y ∧ name ≠ "") :
    Schema.nodeList.violations path
      (.list ((items.filterMap Node.ofValue? ++ added).map Node.toValue)) = [] := by
  have rules := violations_eq_nil_iff.1 h
  have hitems := inner_items_eq_nil_iff.1 (rules (.items Schema.node) (by simp)).2
  have hobjects : (items.filterMap Node.ofValue?).map Node.toValue = items := by
    rw [map_toValue_ofValue?, List.filter_eq_self]
    intro v hv
    obtain ⟨i, hi⟩ := List.mem_iff_getElem?.1 hv
    obtain ⟨fields, rfl, -⟩ := name_of_node_shape (hitems (v, i) (List.mem_zipIdx_iff_getElem?.2 hi))
    rfl
  rw [List.map_append, hobjects]
  refine violations_eq_nil_iff.2 fun rule hrule => ?_
  simp only [List.mem_cons, List.not_mem_nil, or_false] at hrule
  rcases hrule with rfl | rfl
  · exact ⟨rfl, rfl⟩
  · refine ⟨rfl, inner_items_eq_nil_iff.2 ?_⟩
    rintro ⟨v, i⟩ hv
    have hi := List.mem_zipIdx_iff_getElem?.1 hv
    -- an old node stands where it stood, and a new one has its shape anywhere
    rcases Nat.lt_or_ge i items.length with hlt | hge
    · rw [List.getElem?_append_left hlt] at hi
      exact hitems (v, i) (List.mem_zipIdx_iff_getElem?.2 hi)
    · rw [List.getElem?_append_right hge] at hi
      obtain ⟨n, hn, rfl⟩ := List.mem_map.1 (List.mem_of_getElem? hi)
      obtain ⟨id, name, x, y, rfl, hne⟩ := hadded n hn
      exact shape_mergeNode id hne x y _

/-- nodes that moves add are merge nodes -/
theorem mergeNode_of_moves {s t : State} (h : Relation.ReflTransGen Move s t) :
    ∃ added, t.nodes = s.nodes ++ added ∧ ∀ n ∈ added, ∃ id name x y, n = mergeNode id name x y ∧ name ≠ "" := by
  induction h with
  | refl => exact ⟨[], (List.append_nil _).symm, by simp⟩
  | @tail u t _ hmove ih =>
    obtain ⟨added, hnodes, hadded⟩ := ih
    cases hmove with
    | noted rule detail hrule => exact ⟨added, hnodes, hadded⟩
    | merged name x y ends detail hnew hname hends hknown =>
      refine ⟨added ++ [mergeNode (nextId u.nodes) name x y], ?_, List.forall_mem_append.2 ⟨hadded, ?_⟩⟩
      · rw [← List.append_assoc, ← hnodes]
        rfl
      · exact List.forall_mem_singleton.2 ⟨_, name, x, y, rfl, Text.ne_empty_of_not_blank hname⟩
    | connected source target key rule detail hsource hkey htarget hopen hrule => exact ⟨added, hnodes, hadded⟩

/-- **A document of the right shape keeps it**, as long as no name has a line end. -/
theorem shape_written {cfg : BuildConfig} {fields : Fields} {items : List Value} {start s : State}
    (hn : Value.field "nodes" fields = .list items) (hw : WellNamed (items.filterMap Node.ofValue?))
    (hstart : canonicalize fields (items.filterMap Node.ofValue?) = .ok start) (hs : mend cfg start = .ok s)
    (hnames : ∀ n ∈ items.filterMap Node.ofValue?, ∀ name, n.name = .text name → OneLine name)
    (hkeys : Schema.keysAreTexts fields = true) (h : Schema.workflow.violations [] (.object fields) = []) :
    Schema.workflow.violations [] (.object (written fields s)) = [] := by
  have rules := violations_eq_nil_iff.1 h
  obtain ⟨c, hload, hnodes, hconnections, -⟩ := canonicalize_connections hstart
  obtain ⟨c', hload', hmended⟩ := mended_of_mend hstart hs hw
  cases hload.symm.trans hload'
  -- what the document has for nodes and connections is of the right shape
  have hrequired := messages_required_eq_nil_iff.1 (rules (.required ["nodes", "connections"]) (by simp)).1
  have hfield : ∀ name ∈ ["nodes", "connections"],
      Table.get? (.text name) fields = some (Value.field name fields) := by
    intro name hname
    have hhas := hrequired name hname
    rw [Table.has_iff_get?, Option.isSome_iff_exists] at hhas
    obtain ⟨v, hv⟩ := hhas
    rw [Value.field, hv]
    rfl
  have hprops := (rules _ (List.mem_cons_of_mem _ (List.mem_cons_of_mem _ List.mem_cons_self))).2
  rw [SchemaRule.inner, propertyViolations_eq_nil_iff] at hprops
  have hlist := hprops ("nodes", Schema.nodeList) (by simp) _ (hfield "nodes" (by simp))
  have hadjacency := hprops ("connections", Schema.adjacency) (by simp) _ (hfield "connections" (by simp))
  have hlines : Lines start := by
    refine ⟨hnodes ▸ hnames, ?_⟩
    rw [hconnections]
    exact (Connections.lined_of_load hkeys hadjacency hload).mapPorts _
  obtain ⟨added, hall, hadded⟩ := mergeNode_of_moves (mend_moves hs)
  refine violations_eq_nil_iff.2 fun rule hrule => ?_
  simp only [List.mem_cons, List.not_mem_nil, or_false] at hrule
  rcases hrule with rfl | rfl | rfl
  · exact ⟨rfl, rfl⟩
  · refine ⟨messages_required_eq_nil_iff.2 fun name hname => ?_, rfl⟩
    simp only [List.mem_cons, List.not_mem_nil, or_false] at hname
    rcases hname with rfl | rfl
    · rw [Table.has_iff_get?, get?_nodes_written]
      rfl
    · rw [Table.has_iff_get?, get?_connections_written]
      rfl
  · refine ⟨rfl, propertyViolations_eq_nil_iff.2 fun shape hshape v hv => ?_⟩
    have untouched : shape.1 ≠ "nodes" → shape.1 ≠ "connections" →
        shape.2.violations ([] ++ [.field shape.1]) v = [] := by
      intro hne hne'
      have hkey : ∀ {name : String}, shape.1 ≠ name → (Key.text name == Key.text shape.1) = false := by
        intro name hne
        rw [Key.text_beq_text, decide_eq_false_iff_not]
        exact hne.symm
      rw [get?_written fields s (hkey hne) (hkey hne')] at hv
      exact hprops shape hshape v hv
    simp only [List.mem_cons, List.not_mem_nil, or_false] at hshape
    rcases hshape with rfl | rfl | rfl | rfl | rfl | rfl | rfl
    · exact untouched (by decide) (by decide)
    · exact untouched (by decide) (by decide)
    · exact untouched (by decide) (by decide)
    · exact untouched (by decide) (by decide)
    · exact untouched (by decide) (by decide)
    · rw [get?_nodes_written, hall, hnodes] at hv
      cases hv
      rw [hn] at hlist
      exact nodeList_violations_append hlist hadded
    · rw [get?_connections_written] at hv
      cases hv
      have hlined := (lines_of_mend (hnodes ▸ hw) hlines hs).connections
      exact Connections.adjacency_violations_of_lined hlined hmended.canonical.readable _

end Repair

end WorkflowGraph
