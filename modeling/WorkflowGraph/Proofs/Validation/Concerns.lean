import WorkflowGraph.Proofs.Validation.Issues
/-
What the issues of a report are about. For a document whose nodes have proper names, `Concern` says from nodes and
connections alone which structural issues a report has and which node or name each is about.

- `concern_of_issue`, `issue_of_concern`: a report has exactly these.
- `switch_of_issue`, `open_of_issue`: where the issues about switches and outputs were found.
-/
namespace WorkflowGraph

namespace Validation

/-- what can be wrong with a structure of properly named nodes, and the node or name it is about -/
inductive Concern (nodes : List Node) (c : Connections) : IssueCategory → Value → Prop
  | empty (h : nodes = []) : Concern nodes c .empty .null
  | trigger (hne : nodes ≠ []) (h : ∀ n ∈ nodes, n.isTrigger = false) : Concern nodes c .trigger .null
  | dangling {source target ref : String} (hne : nodes ≠ []) (hj : c.Joins (.text source) target)
      (hr : ref = source ∨ ref = target) (h : ¬ Known nodes ref) : Concern nodes c .dangling (.text ref)
  | incoming {n : Node} {s : String} (hn : n ∈ nodes) (ht : n.isTrigger = true) (hs : n.name = .text s)
      (h : Reached nodes c s) : Concern nodes c .triggerIncoming (.text s)
  | disconnected {n : Node} {s : String} (hn : n ∈ nodes) (ht : n.isTrigger = false) (hs : n.name = .text s)
      (h : ¬ Reached nodes c s) : Concern nodes c .disconnected (.text s)
  | parameters {n : Node} (hn : n ∈ nodes) (h : Parameters.missing n ≠ []) : Concern nodes c .parameters n.name

section

variable {cfg : BuildConfig} {document : Fields} {r : Report} {ns : List Named} {g : Graph} {c : Connections}
  {switches outgoing : List (List Issue)}

/-! ## Properly named nodes -/

theorem nameIssues_eq_nil (hkeys : ∀ x ∈ ns, x.node.name.toKey = .ok x.key) (hw : WellNamed (ns.map (·.node))) :
    nameIssues ns = [] := by
  rw [nameIssues_eq_nil_iff]
  have hdistinct := hw.distinct
  rw [List.map_map, List.Nodup, List.pairwise_map] at hdistinct
  refine hdistinct.imp_of_mem ?_
  intro a b ha hb hne
  obtain ⟨s, hs, -⟩ := hw.texts b.node (List.mem_map_of_mem hb)
  by_contra hsame
  rw [Bool.not_eq_false, (key_eq_text_iff (hkeys b hb)).2 hs] at hsame
  exact hne (((key_eq_text_iff (hkeys a ha)).1 (Key.eq_text_of_beq hsame)).trans hs.symm)

theorem text_mem_triggerKeys_iff (hkeys : ∀ x ∈ ns, x.node.name.toKey = .ok x.key) {s : String} :
    Key.text s ∈ triggerKeys ns ↔ ∃ n ∈ ns.map (·.node), n.isTrigger = true ∧ n.name = .text s := by
  constructor
  · intro h
    obtain ⟨x, hx, hs⟩ := List.mem_map.1 h
    rw [List.mem_filter] at hx
    exact ⟨x.node, List.mem_map_of_mem hx.1, hx.2, (key_eq_text_iff (hkeys x hx.1)).1 hs⟩
  · rintro ⟨n, hn, ht, hs⟩
    obtain ⟨x, hx, rfl⟩ := List.mem_map.1 hn
    exact List.mem_map.2 ⟨x, List.mem_filter.2 ⟨hx, ht⟩, (key_eq_text_iff (hkeys x hx)).2 hs⟩

/-- a properly named node has the key of a trigger exactly when it is one -/
theorem contains_triggerKeys_iff (hkeys : ∀ x ∈ ns, x.node.name.toKey = .ok x.key) (hw : WellNamed (ns.map (·.node)))
    {x : Named} (hx : x ∈ ns) {s : String} (hs : x.node.name = .text s) :
    (triggerKeys ns).contains (.text s) = true ↔ x.node.isTrigger = true := by
  have hmem : (triggerKeys ns).contains (.text s) = true ↔ Key.text s ∈ triggerKeys ns := by
    rw [List.contains_iff_exists_mem_beq]
    constructor
    · rintro ⟨k, hk, hb⟩
      rwa [← Key.eq_text_of_beq (BEq.symm hb)]
    · exact fun h => ⟨_, h, BEq.refl _⟩
  rw [hmem, text_mem_triggerKeys_iff hkeys]
  constructor
  · rintro ⟨n, hn, ht, hname⟩
    rwa [hw.eq_of_name (List.mem_map_of_mem hx) hn (hs.trans hname.symm)]
  · exact fun ht => ⟨x.node, List.mem_map_of_mem hx, ht, hs⟩

/-! ## From issues to concerns -/

/-- an end of an edge, as a text -/
theorem exists_text_of_mem_references (hc : c.Keyed) {ref : Key × Link} (h : ref ∈ references c) :
    ∃ source target s, c.Joins (.text source) target ∧ (s = source ∨ s = target) ∧ ref.1 = .text s := by
  obtain ⟨hl, hends⟩ := mem_references.1 h
  obtain ⟨x, hx, hxs, -⟩ := Connections.mem_links_iff.1 hl
  obtain ⟨source, hsource⟩ := hc.texts x hx
  have hls : ref.2.source = .text source := hxs ▸ hsource
  have hjoins : c.Joins (.text source) ref.2.edge.node := hc.exists_link_iff.1 ⟨ref.2, hl, hls, rfl⟩
  rcases hends with hend | hend
  · exact ⟨source, _, source, hjoins, Or.inl rfl, hend.trans hls⟩
  · exact ⟨source, _, _, hjoins, Or.inr rfl, hend⟩

variable (h : Examined cfg document r ns g c switches outgoing) (hkeys : ∀ x ∈ ns, x.node.name.toKey = .ok x.key)
  (hw : WellNamed (ns.map (·.node)))
  (hreached : ∀ s, isReached g (.text s) = true ↔ Reached (ns.map (·.node)) c s)

include hkeys hw hreached

/-- a properly named node is disconnected when it is no trigger and no edge leads to it -/
theorem isDisconnected_iff {x : Named} (hx : x ∈ ns) {s : String} (hs : x.node.name = .text s) :
    isDisconnected g (triggerKeys ns) x = true ↔ x.node.isTrigger = false ∧ ¬ Reached (ns.map (·.node)) c s := by
  rw [isDisconnected, (key_eq_text_iff (hkeys x hx)).2 hs, Bool.and_eq_true, Bool.not_eq_true', Bool.not_eq_true',
    ← hreached, ← Bool.not_eq_true, ← Bool.not_eq_true, ← Bool.not_eq_true, contains_triggerKeys_iff hkeys hw hx hs]

include h

/-- an issue of a document with nodes is about a concern -/
theorem concern_of_examined (hne : ns ≠ []) {i : Issue} (hi : i ∈ r.issues) (hschema : i.category ≠ .schema)
    (hswitch : i.category ≠ .switch) (hout : i.category ≠ .noOutgoing) :
    Concern (ns.map (·.node)) c i.category i.node := by
  rw [h.issues] at hi
  simp only [List.mem_append] at hi
  rcases hi with hi | (((((((hi | hi) | hi) | hi) | hi) | hi) | hi) | hi)
  · exact absurd (of_mem_schemaIssues hi).2 hschema
  · obtain ⟨hnone, rfl⟩ := mem_triggerIssues.1 hi
    exact .trigger (by simpa using hne) (List.forall_mem_map.2 hnone)
  · rw [nameIssues_eq_nil hkeys hw] at hi
    cases hi
  · obtain ⟨ref, href, hunknown, message, rfl⟩ := of_mem_danglingIssues hi
    obtain ⟨source, target, s, hjoins, hends, htext⟩ :=
      exists_text_of_mem_references (Connections.load_form h.load).1.toKeyed href
    rw [htext] at hunknown ⊢
    refine .dangling (by simpa using hne) hjoins hends fun hknown => ?_
    simp [(contains_text_iff hkeys).2 hknown] at hunknown
  · obtain ⟨s, hmem, hreach, rfl⟩ := mem_incomingIssues.1 hi
    obtain ⟨n, hn, ht, hs⟩ := (text_mem_triggerKeys_iff hkeys).1 hmem
    exact .incoming hn ht hs ((hreached s).1 hreach)
  · obtain ⟨x, hx, hdisc, rfl⟩ := mem_disconnectedIssues.1 hi
    obtain ⟨s, hs, -⟩ := hw.texts x.node (List.mem_map_of_mem hx)
    obtain ⟨ht, hnot⟩ := (isDisconnected_iff hkeys hw hreached hx hs).1 hdisc
    rw [(key_eq_text_iff (hkeys x hx)).2 hs]
    exact .disconnected (List.mem_map_of_mem hx) ht hs hnot
  · obtain ⟨l, hl, hi⟩ := List.mem_flatten.1 hi
    obtain ⟨x, -, hx⟩ := exists_of_mem_mapM h.ports hl
    exact absurd (of_mem_switchIssues hx hi).2 hswitch
  · obtain ⟨l, hl, hi⟩ := List.mem_flatten.1 hi
    obtain ⟨x, -, hx⟩ := exists_of_mem_mapM h.outputs hl
    exact absurd (of_mem_outgoingIssues hx hi).2.1 hout
  · obtain ⟨x, hx, hi⟩ := List.mem_flatMap.1 hi
    obtain ⟨hmissing, rfl⟩ := mem_parameterIssues.1 hi
    rw [Value.ofKey_of_toKey (hkeys x hx)]
    exact .parameters (List.mem_map_of_mem hx) hmissing

/-- a concern about a document with nodes is reported -/
theorem examined_of_concern (hne : ns ≠ []) {k : IssueCategory} {v : Value}
    (hc : Concern (ns.map (·.node)) c k v) : ∃ i ∈ r.issues, i.category = k ∧ i.node = v := by
  simp only [h.issues, List.mem_append]
  cases hc with
  | empty hnil => exact absurd (List.map_eq_nil_iff.1 hnil) hne
  | trigger hne' hnone =>
    exact ⟨_, .inr (.inl (.inl (.inl (.inl (.inl (.inl (.inl
      (mem_triggerIssues.2 ⟨List.forall_mem_map.1 hnone, rfl⟩)))))))), rfl, rfl⟩
  | @dangling source target ref _ hj hr hunknown =>
    obtain ⟨l, hl, hls, hnode⟩ := (Connections.load_form h.load).1.toKeyed.exists_link_iff.2 hj
    have href : (Key.text ref, l) ∈ references c := by
      refine mem_references.2 ⟨hl, ?_⟩
      rcases hr with rfl | rfl
      · exact .inl hls.symm
      · exact .inr (by rw [hnode])
    have hnot : (ns.map (·.key)).contains (Key.text ref) = false := by
      rw [← Bool.not_eq_true, contains_text_iff hkeys]
      exact hunknown
    obtain ⟨i, hi, hcategory, k, hk, hnode'⟩ := exists_danglingIssue href hnot List.contains_nil
    rw [Key.eq_text_of_beq hk] at hnode'
    exact ⟨i, .inr (.inl (.inl (.inl (.inl (.inl (.inr hi)))))), hcategory, hnode'⟩
  | @incoming n s hn ht hs hreach =>
    have hmem := (text_mem_triggerKeys_iff hkeys).2 ⟨n, hn, ht, hs⟩
    exact ⟨_, .inr (.inl (.inl (.inl (.inl (.inr
      (mem_incomingIssues.2 ⟨s, hmem, (hreached s).2 hreach, rfl⟩)))))), rfl, rfl⟩
  | @disconnected n s hn ht hs hnot =>
    obtain ⟨x, hx, rfl⟩ := List.mem_map.1 hn
    have hdisc := (isDisconnected_iff hkeys hw hreached hx hs).2 ⟨ht, hnot⟩
    refine ⟨_, .inr (.inl (.inl (.inl (.inr (mem_disconnectedIssues.2 ⟨x, hx, hdisc, rfl⟩))))), rfl, ?_⟩
    rw [(key_eq_text_iff (hkeys x hx)).2 hs]
    rfl
  | @parameters n hn hmissing =>
    obtain ⟨x, hx, rfl⟩ := List.mem_map.1 hn
    exact ⟨_, .inr (.inr (List.mem_flatMap.2 ⟨x, hx, mem_parameterIssues.2 ⟨hmissing, rfl⟩⟩)), rfl,
      Value.ofKey_of_toKey (hkeys x hx)⟩

end

/-! ## The report of a document -/

section

variable {cfg : BuildConfig} {document : Fields} {r : Report} {c : Connections}
  (h : validate cfg (.object document) = .ok r)
  (hlist : Document.nodes document = .ok (Document.nodesOf (Value.field "nodes" document)))
  (hload : Connections.load (Value.field "connections" document) = .ok c)
  (hw : WellNamed (Document.nodesOf (Value.field "nodes" document)))

include h hlist hload

/-- the graph of an examined document has the edges of its connections -/
theorem examined_reached (hn : Document.nodesOf (Value.field "nodes" document) ≠ []) :
    ∃ ns g switches outgoing, Examined cfg document r ns g c switches outgoing ∧
      ns.map (·.node) = Document.nodesOf (Value.field "nodes" document) ∧
      (∀ x ∈ ns, x.node.name.toKey = .ok x.key) ∧
      ∀ s, isReached g (.text s) = true ↔ Reached (ns.map (·.node)) c s := by
  obtain ⟨ns, g, c', switches, outgoing, hexamined⟩ := examined_of_validate h hn
  cases hload.symm.trans hexamined.load
  obtain ⟨hnodes, hkeys⟩ := named_spec hexamined.nodes
  refine ⟨ns, g, switches, outgoing, hexamined, hnodes, hkeys, fun s => ?_⟩
  rw [hnodes, ← Graph.ofDocument_reached hexamined.graph hlist hload s, isReached_eq_true_iff]
  constructor
  · rintro ⟨t, ht, hreach⟩
    cases ht
    exact hreach
  · exact fun hreach => ⟨s, rfl, hreach⟩

include hw

/-- an issue is about a concern, unless it is about the shape, the ports of a switch or an output -/
theorem concern_of_issue {i : Issue} (hi : i ∈ r.issues) (hschema : i.category ≠ .schema)
    (hswitch : i.category ≠ .switch) (hout : i.category ≠ .noOutgoing) :
    Concern (Document.nodesOf (Value.field "nodes" document)) c i.category i.node := by
  by_cases hn : Document.nodesOf (Value.field "nodes" document) = []
  · rw [validate_without_nodes h hn] at hi
    rcases List.mem_append.1 hi with hi | hi
    · exact absurd (of_mem_schemaIssues hi).2 hschema
    · rw [List.mem_singleton.1 hi]
      exact .empty hn
  · obtain ⟨ns, g, switches, outgoing, hexamined, hnodes, hkeys, hreached⟩ := examined_reached h hlist hload hn
    rw [← hnodes] at hw hn ⊢
    exact concern_of_examined hexamined hkeys hw hreached (by simpa using hn) hi hschema hswitch hout

/-- a concern is reported -/
theorem issue_of_concern {k : IssueCategory} {v : Value}
    (hc : Concern (Document.nodesOf (Value.field "nodes" document)) c k v) :
    ∃ i ∈ r.issues, i.category = k ∧ i.node = v := by
  by_cases hn : Document.nodesOf (Value.field "nodes" document) = []
  · have hissue : Issue.error .empty "Workflow has no nodes" .null ∈ r.issues := by
      simp [validate_without_nodes h hn]
    rw [hn] at hc
    cases hc with
    | empty => exact ⟨_, hissue, rfl, rfl⟩
    | trigger hne => exact absurd rfl hne
    | dangling hne => exact absurd rfl hne
    | incoming hn => cases hn
    | disconnected hn => cases hn
    | parameters hn => cases hn
  · obtain ⟨ns, g, switches, outgoing, hexamined, hnodes, hkeys, hreached⟩ := examined_reached h hlist hload hn
    rw [← hnodes] at hw hn hc
    exact examined_of_concern hexamined hkeys hw hreached (by simpa using hn) hc

end

/-! ## Single nodes -/

/-- an issue about a node without an incoming edge, a switch or an output was found by the check of one node -/
theorem Examined.at_node {cfg : BuildConfig} {document : Fields} {r : Report} {ns : List Named} {g : Graph}
    {c : Connections} {switches outgoing : List (List Issue)} (h : Examined cfg document r ns g c switches outgoing)
    {i : Issue} (hi : i ∈ r.issues)
    (hcategory : i.category = .disconnected ∨ i.category = .switch ∨ i.category = .noOutgoing) :
    i ∈ disconnectedIssues g (triggerKeys ns) ns ∨ (∃ x ∈ ns, ∃ l, switchIssues c x = .ok l ∧ i ∈ l) ∨
      ∃ x ∈ ns, ∃ l, outgoingIssues cfg c (followers ns) (disconnectedKeys g ns) x = .ok l ∧ i ∈ l := by
  rw [h.issues] at hi
  simp only [List.mem_append] at hi
  rcases hi with hi | (((((((hi | hi) | hi) | hi) | hi) | hi) | hi) | hi)
  · simp [(of_mem_schemaIssues hi).2] at hcategory
  · simp [(mem_triggerIssues.1 hi).2, Issue.error] at hcategory
  · simp [(of_mem_nameIssues hi).2] at hcategory
  · obtain ⟨ref, -, -, message, rfl⟩ := of_mem_danglingIssues hi
    simp [Issue.error] at hcategory
  · obtain ⟨s, -, -, rfl⟩ := mem_incomingIssues.1 hi
    simp at hcategory
  · exact Or.inl hi
  · obtain ⟨l, hl, hi⟩ := List.mem_flatten.1 hi
    obtain ⟨x, hx, hxl⟩ := exists_of_mem_mapM h.ports hl
    exact Or.inr (Or.inl ⟨x, hx, l, hxl, hi⟩)
  · obtain ⟨l, hl, hi⟩ := List.mem_flatten.1 hi
    obtain ⟨x, hx, hxl⟩ := exists_of_mem_mapM h.outputs hl
    exact Or.inr (Or.inr ⟨x, hx, l, hxl, hi⟩)
  · obtain ⟨x, -, hi⟩ := List.mem_flatMap.1 hi
    simp [(mem_parameterIssues.1 hi).2] at hcategory

/-- no such issue is about a document without nodes -/
theorem examined_of_issue {cfg : BuildConfig} {document : Fields} {r : Report}
    (h : validate cfg (.object document) = .ok r) {i : Issue} (hi : i ∈ r.issues)
    (hcategory : i.category = .disconnected ∨ i.category = .switch ∨ i.category = .noOutgoing) :
    ∃ ns g c switches outgoing, Examined cfg document r ns g c switches outgoing := by
  refine examined_of_validate h fun hn => ?_
  rw [validate_without_nodes h hn] at hi
  rcases List.mem_append.1 hi with hi | hi
  · simp [(of_mem_schemaIssues hi).2] at hcategory
  · simp [List.mem_singleton.1 hi, Issue.error] at hcategory

/-- an issue about a node without an incoming edge concerns a document with nodes, and it can be mended -/
theorem of_disconnected_issue {cfg : BuildConfig} {document : Value} {r : Report}
    (h : validate cfg document = .ok r) {i : Issue} (hi : i ∈ r.issues) (hcategory : i.category = .disconnected) :
    Document.nodesIn document ≠ [] ∧ i.autofixable = true := by
  cases document with
  | object document =>
    obtain ⟨ns, g, c, switches, outgoing, hexamined⟩ := examined_of_issue h hi (Or.inl hcategory)
    rcases hexamined.at_node hi (Or.inl hcategory) with hi | ⟨x, -, l, hl, hil⟩ | ⟨x, -, l, hl, hil⟩
    · obtain ⟨x, hx, -, rfl⟩ := mem_disconnectedIssues.1 hi
      have hnodes : ns.map (·.node) = Document.nodesIn (.object document) := (named_spec hexamined.nodes).1
      exact ⟨hnodes ▸ List.ne_nil_of_mem (List.mem_map_of_mem hx), rfl⟩
    · simp [(of_mem_switchIssues hl hil).2] at hcategory
    · simp [(of_mem_outgoingIssues hl hil).2.1] at hcategory
  | _ =>
    cases h
    simp [List.mem_singleton.1 hi, Issue.error] at hcategory

section

variable {cfg : BuildConfig} {document : Fields} {r : Report} {c : Connections}
  (h : validate cfg (.object document) = .ok r)
  (hload : Connections.load (Value.field "connections" document) = .ok c) {i : Issue} (hi : i ∈ r.issues)

include h hload hi

/-- an issue about a switch or an output was found at a node -/
theorem found_of_issue (hcategory : i.category = .switch ∨ i.category = .noOutgoing) :
    ∃ ns g switches outgoing, Examined cfg document r ns g c switches outgoing ∧
      ((∃ x ∈ ns, ∃ l, switchIssues c x = .ok l ∧ i ∈ l) ∨
        ∃ x ∈ ns, ∃ l, outgoingIssues cfg c (followers ns) (disconnectedKeys g ns) x = .ok l ∧ i ∈ l) := by
  obtain ⟨ns, g, c', switches, outgoing, hexamined⟩ := examined_of_issue h hi (Or.inr hcategory)
  cases hload.symm.trans hexamined.load
  refine ⟨ns, g, switches, outgoing, hexamined, (hexamined.at_node hi (Or.inr hcategory)).resolve_left fun hi => ?_⟩
  obtain ⟨x, -, -, rfl⟩ := mem_disconnectedIssues.1 hi
  simp at hcategory

/-- an issue about a switch is one that the check of a node found -/
theorem switch_of_issue (hcategory : i.category = .switch) :
    ∃ n ∈ Document.nodesOf (Value.field "nodes" document), ∃ key l, n.name.toKey = .ok key ∧
      switchIssues c ⟨key, n⟩ = .ok l ∧ i ∈ l := by
  obtain ⟨ns, g, switches, outgoing, hexamined, ⟨x, hx, l, hl, hil⟩ | ⟨x, hx, l, hl, hil⟩⟩ :=
    found_of_issue h hload hi (Or.inl hcategory)
  · obtain ⟨hnodes, hkeys⟩ := named_spec hexamined.nodes
    exact ⟨x.node, hnodes ▸ List.mem_map_of_mem hx, x.key, l, hkeys x hx, hl, hil⟩
  · simp [(of_mem_outgoingIssues hl hil).2.1] at hcategory

/-- an output is reported only where it leads nowhere, must not, and could lead on -/
theorem open_of_issue (hcategory : i.category = .noOutgoing) :
    ∃ n ∈ Document.nodesOf (Value.field "nodes" document), n.isConcluding = false ∧
      (∃ key, n.name.toKey = .ok key ∧ c.hasOutgoing key = false) ∧
      ∃ follower, Rows.successor id (.whole cfg.rowTolerance) (.whole cfg.rowMinDx) n
        ((Document.nodesOf (Value.field "nodes" document)).filter fun m => !m.isTrigger) = .ok (some follower) := by
  obtain ⟨ns, g, switches, outgoing, hexamined, ⟨x, hx, l, hl, hil⟩ | ⟨x, hx, l, hl, hil⟩⟩ :=
    found_of_issue h hload hi (Or.inr hcategory)
  · simp [(of_mem_switchIssues hl hil).2] at hcategory
  · obtain ⟨hnodes, hkeys⟩ := named_spec hexamined.nodes
    obtain ⟨-, -, hopen, hout, follower, hfollower⟩ := of_mem_outgoingIssues hl hil
    rw [followers_eq, hnodes] at hfollower
    exact ⟨x.node, hnodes ▸ List.mem_map_of_mem hx, hopen, ⟨x.key, hkeys x hx, hout⟩, follower, hfollower⟩

end

end Validation

end WorkflowGraph
