import WorkflowGraph.Proofs.Schema
import WorkflowGraph.Proofs.Validation.Issues
/-
Soundness of the valid verdict. The checks read the edges of a document in two ways, as a graph that leaves out edges
with unknown ends and as a list, and rely on the shape of the document for names that are texts. Together they leave no
gap: a document reported valid has a trigger, unique names, edges between its nodes only and none into a trigger, an
edge into everything else, and switches with a filled port for each of their rules.

- `clean_of_isValid`: in a report without errors every check whose issues are errors found nothing.
- `sound_of_isValid`: what is reported valid is sound, for every value that is validated.
-/
namespace WorkflowGraph

namespace Validation

/-- a node lists so many rules among its parameters -/
def DeclaresRules (n : Node) (count : Nat) : Prop :=
  ∃ params rules branches, n.get "parameters" = .object params ∧ Value.field "rules" params = .object rules ∧
    Value.field "rules" rules = .list branches ∧ branches.length = count

/-- nodes and connections of a sound structure -/
structure Sound (nodes : List Node) (c : Connections) : Prop where
  /-- some node starts the workflow -/
  entry : ∃ n ∈ nodes, n.isTrigger = true
  /-- every name is a text and not empty -/
  named : ∀ n ∈ nodes, ∃ s, n.name = .text s ∧ s ≠ ""
  /-- no two nodes have one name -/
  distinct : (nodes.map Node.name).Nodup
  /-- edges leave nodes -/
  source : ∀ l ∈ c.links, ∃ n ∈ nodes, n.name = .ofKey l.source
  /-- edges lead to nodes -/
  target : ∀ l ∈ c.links, ∃ n ∈ nodes, n.name = .text l.edge.node
  /-- no edge leads to a trigger -/
  triggerFree : ∀ l ∈ c.links, ∀ n ∈ nodes, n.isTrigger = true → n.name ≠ .text l.edge.node
  /-- an edge leads to every other node -/
  reached : ∀ n ∈ nodes, n.isTrigger = false → ∃ l ∈ c.links, n.name = .text l.edge.node
  /-- a switch has a main port for each of its rules -/
  portCount : ∀ n ∈ nodes, n.isSwitch = true → ∀ count, 1 ≤ count → DeclaresRules n count →
    ∀ s, n.name = .text s → (c.ports (.text s) mainType).length = count
  /-- a switch has no empty main port -/
  portsFilled : ∀ n ∈ nodes, n.isSwitch = true → ∀ s, n.name = .text s → ∀ p ∈ c.ports (.text s) mainType, p ≠ []

theorem declaredBranches_of_declaresRules {n : Node} {count : Nat} (h : DeclaresRules n count) :
    declaredBranches n = .ok count := by
  obtain ⟨params, rules, branches, hparams, hrules, hbranches, rfl⟩ := h
  unfold declaredBranches
  rw [hparams]
  simp only [hrules, hbranches]

theorem not_error_of_isValid {r : Report} (h : r.isValid = true) {i : Issue} (hi : i ∈ r.issues) :
    i.severity ≠ .error := by
  intro herr
  have hmem : i ∈ r.errors := List.mem_filter.2 ⟨hi, by simp [herr]⟩
  rw [Report.isValid, List.isEmpty_iff] at h
  simp [h] at hmem

theorem schemaIssues_eq_nil {document : Fields} (h : schemaIssues document = []) :
    Schema.workflow.violations [] (.object document) = [] := by
  unfold schemaIssues at h
  split at h
  · cases h
  · rename_i hworst
    exact worst_eq_none_iff.1 hworst

/-- the shape of a document makes the names of its nodes texts that are not empty -/
theorem names_of_shape {document : Fields} (h : schemaIssues document = []) :
    ∀ n ∈ Document.nodesOf (Value.field "nodes" document), ∃ s, n.name = .text s ∧ s ≠ "" := by
  obtain ⟨items, hitems, hshape⟩ := nodes_of_workflow_shape (schemaIssues_eq_nil h)
  intro n hn
  rw [Document.nodesOf, Value.field, hitems] at hn
  obtain ⟨v, hv, hvn⟩ := List.mem_filterMap.1 hn
  obtain ⟨path, hpath⟩ := hshape v hv
  obtain ⟨fields, rfl, s, hs, hne⟩ := name_of_node_shape hpath
  cases hvn
  refine ⟨s, ?_, hne⟩
  rw [Node.name, Node.get, Value.field, hs, Option.getD_some]

/-- in a document of the right shape the nodes are a list -/
theorem nodes_eq_nodesOf_of_shape {document : Fields} (h : schemaIssues document = []) :
    Document.nodes document = .ok (Document.nodesOf (Value.field "nodes" document)) := by
  obtain ⟨items, hitems, -⟩ := nodes_of_workflow_shape (schemaIssues_eq_nil h)
  have hfield : Value.field "nodes" document = .list items := by rw [Value.field, hitems, Option.getD_some]
  rw [Document.nodes, hfield]
  rfl

/-- a list of issues of which none may stand in the report is empty -/
theorem eq_nil_of_all_errors {l : List Issue} (h : ∀ i ∈ l, i.severity ≠ .error) (herr : ∀ i ∈ l, i.severity = .error) :
    l = [] :=
  List.eq_nil_iff_forall_not_mem.2 fun i hi => h i hi (herr i hi)

/-! ## Checks that found nothing -/

/-- the checks whose issues are errors found nothing -/
structure Clean (ns : List Named) (g : Graph) (c : Connections) (switches : List (List Issue)) : Prop where
  triggers : triggerIssues ns = []
  names : nameIssues ns = []
  ends : danglingIssues (ns.map (·.key)) [] (references c) = []
  incoming : incomingIssues g (triggerKeys ns) = []
  connected : disconnectedIssues g (triggerKeys ns) ns = []
  ports : ∀ l ∈ switches, l = []

section

variable {cfg : BuildConfig} {document : Fields} {r : Report} {ns : List Named} {g : Graph} {c : Connections}
  {switches outgoing : List (List Issue)}

/-- in a report without errors, the shape is right and the checks whose issues are errors found nothing -/
theorem clean_of_isValid (h : Examined cfg document r ns g c switches outgoing) (hv : r.isValid = true) :
    schemaIssues document = [] ∧ Clean ns g c switches := by
  have hnone : ∀ i ∈ r.issues, i.severity ≠ .error := fun i hi => not_error_of_isValid hv hi
  rw [h.issues] at hnone
  simp only [List.forall_mem_append] at hnone
  obtain ⟨hschema, ⟨⟨⟨⟨⟨⟨htriggers, hnames⟩, hends⟩, hincoming⟩, hconnected⟩, hports⟩, -⟩, -⟩ := hnone
  refine ⟨eq_nil_of_all_errors hschema fun i hi => (of_mem_schemaIssues hi).1, ?_⟩
  refine ⟨eq_nil_of_all_errors htriggers fun i hi => (mem_triggerIssues.1 hi).2 ▸ rfl,
    eq_nil_of_all_errors hnames fun i hi => (of_mem_nameIssues hi).1, eq_nil_of_all_errors hends fun i hi => ?_,
    eq_nil_of_all_errors hincoming fun i hi => ?_, eq_nil_of_all_errors hconnected fun i hi => ?_,
    List.flatten_eq_nil_iff.1 (eq_nil_of_all_errors hports fun i hi => ?_)⟩
  · obtain ⟨ref, -, -, message, rfl⟩ := of_mem_danglingIssues hi
    rfl
  · obtain ⟨s, -, -, rfl⟩ := mem_incomingIssues.1 hi
    rfl
  · obtain ⟨x, -, -, rfl⟩ := mem_disconnectedIssues.1 hi
    rfl
  · obtain ⟨l, hl, hi⟩ := List.mem_flatten.1 hi
    obtain ⟨x, -, hx⟩ := exists_of_mem_mapM h.ports hl
    exact (of_mem_switchIssues hx hi).1

/-! ## What they found nothing about -/

section

variable {ns : List Named} {g : Graph} {c : Connections} {switches : List (List Issue)}
  (hkeys : ∀ x ∈ ns, x.node.name.toKey = .ok x.key) (h : Clean ns g c switches)

include hkeys h

/-- the ends of edges are nodes when none is reported -/
theorem known_of_clean {ref : String} {l : Link} (hr : (.text ref, l) ∈ references c) :
    Known (ns.map (·.node)) ref := by
  rw [← contains_text_iff hkeys, ← Bool.not_eq_false]
  intro hk
  obtain ⟨i, hi, -⟩ := exists_danglingIssue hr hk List.contains_nil
  rw [h.ends] at hi
  cases hi

/-- names without an issue are distinct -/
theorem nodup_names_of_clean : ((ns.map (·.node)).map Node.name).Nodup := by
  rw [List.map_map, List.Nodup, List.pairwise_map]
  refine (nameIssues_eq_nil_iff.1 h.names).imp_of_mem ?_
  intro a b ha hb hab heq
  have hkey : a.node.name.toKey = b.node.name.toKey := congrArg Value.toKey heq
  rw [hkeys a ha, hkeys b hb] at hkey
  rw [Except.ok.inj hkey] at hab
  simp at hab

/-- the key of a node that is no trigger is not the key of a trigger -/
theorem contains_triggerKeys_of_clean {x : Named} (hx : x ∈ ns) (hnot : x.node.isTrigger = false) {s : String}
    (hs : x.node.name = .text s) : (triggerKeys ns).contains (.text s) = false := by
  by_contra htrigger
  obtain ⟨k, hk, hb⟩ := List.contains_iff_exists_mem_beq.1 (Bool.not_eq_false _ ▸ htrigger)
  obtain ⟨y, hy, rfl⟩ := List.mem_map.1 hk
  rw [List.mem_filter] at hy
  have hname := (key_eq_text_iff (hkeys y hy.1)).1 (Key.eq_text_of_beq (BEq.symm hb))
  have hsame := List.inj_on_of_nodup_map (nodup_names_of_clean hkeys h) (List.mem_map_of_mem hy.1)
    (List.mem_map_of_mem hx) (hname.trans hs.symm)
  simp [hsame, hnot] at hy

/-- the graph has an edge to each node that is no trigger -/
theorem isReached_of_clean {x : Named} (hx : x ∈ ns) (hnot : x.node.isTrigger = false) {s : String}
    (hs : x.node.name = .text s) : isReached g (.text s) = true := by
  by_contra hreach
  have hdisc : isDisconnected g (triggerKeys ns) x = true := by
    rw [isDisconnected, (key_eq_text_iff (hkeys x hx)).2 hs, contains_triggerKeys_of_clean hkeys h hx hnot hs]
    simpa using hreach
  have hissue := mem_disconnectedIssues.2 ⟨x, hx, hdisc, rfl⟩
  rw [h.connected] at hissue
  cases hissue

/-- the graph has no edge to a trigger -/
theorem not_isReached_of_clean {x : Named} (hx : x ∈ ns) (htrigger : x.node.isTrigger = true) {s : String}
    (hs : x.node.name = .text s) : isReached g (.text s) = false := by
  by_contra hreach
  have hmem : Key.text s ∈ triggerKeys ns :=
    List.mem_map.2 ⟨x, List.mem_filter.2 ⟨hx, htrigger⟩, (key_eq_text_iff (hkeys x hx)).2 hs⟩
  have hissue := mem_incomingIssues.2 ⟨s, hmem, by simpa using hreach, rfl⟩
  rw [h.incoming] at hissue
  cases hissue

/-- a switch has a port for each rule it declares, and no empty one -/
theorem ports_of_clean (hports : ns.mapM (switchIssues c) = .ok switches) {x : Named} (hx : x ∈ ns)
    (hswitch : x.node.isSwitch = true) {s : String} (hs : x.node.name = .text s) :
    (∀ count, 1 ≤ count → DeclaresRules x.node count → (c.ports (.text s) mainType).length = count) ∧
      ∀ p ∈ c.ports (.text s) mainType, p ≠ [] := by
  obtain ⟨l, hl, hxl⟩ := exists_mem_of_mapM hports hx
  rw [h.ports l hl] at hxl
  obtain ⟨declared, hdeclared, hcount, hfilled⟩ := switchIssues_eq_nil hxl hswitch
  rw [(key_eq_text_iff (hkeys x hx)).2 hs] at hcount hfilled
  refine ⟨fun count hpos hrules => ?_, hfilled⟩
  cases (declaredBranches_of_declaresRules hrules).symm.trans hdeclared
  exact hcount (by omega)

end

/-! ## Soundness -/

/-- the structure of a document with nodes on which the report has no errors is sound -/
theorem sound_of_examined (h : Examined cfg document r ns g c switches outgoing) (hv : r.isValid = true) :
    Sound (Document.nodesOf (Value.field "nodes" document)) c := by
  obtain ⟨hschema, hclean⟩ := clean_of_isValid h hv
  obtain ⟨hnodes, hkeys⟩ := named_spec h.nodes
  have hkeyed := (Connections.load_form h.load).1.toKeyed
  have htexts := names_of_shape hschema
  have hreached := fun s => Graph.ofDocument_reached h.graph (nodes_eq_nodesOf_of_shape hschema) h.load s
  rw [← hnodes] at htexts hreached ⊢
  have hsource : ∀ l ∈ c.links, ∃ s, l.source = .text s ∧ Known (ns.map (·.node)) s := by
    intro l hl
    obtain ⟨x, hx, hxs, -⟩ := Connections.mem_links_iff.1 hl
    obtain ⟨s, hs⟩ := hkeyed.texts x hx
    have hls : l.source = .text s := hxs ▸ hs
    exact ⟨s, hls, known_of_clean hkeys hclean (mem_references.2 ⟨hl, Or.inl hls.symm⟩)⟩
  have htarget : ∀ l ∈ c.links, Known (ns.map (·.node)) l.edge.node :=
    fun l hl => known_of_clean hkeys hclean (mem_references.2 ⟨hl, Or.inr rfl⟩)
  -- the graph leaves out edges with unknown ends; here there are none, so it has all edges
  have hgraph : ∀ l ∈ c.links, isReached g (.text l.edge.node) = true := by
    intro l hl
    obtain ⟨s, hs, hknown⟩ := hsource l hl
    exact isReached_eq_true_iff.2 ⟨_, rfl, (hreached _).2
      ⟨htarget l hl, s, hknown, hkeyed.exists_link_iff.1 ⟨l, hl, hs, rfl⟩⟩⟩
  refine {
    entry := ?_
    named := htexts
    distinct := nodup_names_of_clean hkeys hclean
    source := ?_
    target := htarget
    triggerFree := ?_
    reached := ?_
    portCount := ?_
    portsFilled := ?_ }
  · obtain ⟨x, hx, ht⟩ := triggerIssues_eq_nil_iff.1 hclean.triggers
    exact ⟨x.node, List.mem_map_of_mem hx, ht⟩
  · intro l hl
    obtain ⟨s, hs, n, hn, hname⟩ := hsource l hl
    exact ⟨n, hn, by rw [hs]; exact hname⟩
  · intro l hl n hn htrigger hname
    obtain ⟨x, hx, rfl⟩ := List.mem_map.1 hn
    have hfree := not_isReached_of_clean hkeys hclean hx htrigger hname
    rw [hgraph l hl] at hfree
    cases hfree
  · intro n hn hnot
    obtain ⟨x, hx, rfl⟩ := List.mem_map.1 hn
    obtain ⟨s, hs, -⟩ := htexts _ hn
    obtain ⟨t, ht, harc⟩ := isReached_eq_true_iff.1 (isReached_of_clean hkeys hclean hx hnot hs)
    cases ht
    obtain ⟨-, source, -, hjoins⟩ := (hreached s).1 harc
    obtain ⟨l, hl, -, hnode⟩ := hkeyed.exists_link_iff.2 hjoins
    exact ⟨l, hl, by rw [hnode, hs]⟩
  · intro n hn hswitch count hpos hrules s hs
    obtain ⟨x, hx, rfl⟩ := List.mem_map.1 hn
    exact (ports_of_clean hkeys hclean h.ports hx hswitch hs).1 count hpos hrules
  · intro n hn hswitch s hs
    obtain ⟨x, hx, rfl⟩ := List.mem_map.1 hn
    exact (ports_of_clean hkeys hclean h.ports hx hswitch hs).2

end

/-- **What is reported valid is sound.** A value on which the report has no errors is an object whose connections can be
read, and its nodes and these connections are a sound structure. -/
theorem sound_of_isValid {cfg : BuildConfig} {document : Value} {r : Report} (h : validate cfg document = .ok r)
    (hv : r.isValid = true) :
    ∃ fields c, document = .object fields ∧ Connections.load (Value.field "connections" fields) = .ok c ∧
      Sound (Document.nodesOf (Value.field "nodes" fields)) c := by
  cases document with
  | object fields =>
    by_cases hn : Document.nodesOf (Value.field "nodes" fields) = []
    · have hissues := validate_without_nodes h hn
      have hempty := not_error_of_isValid hv (i := .error .empty "Workflow has no nodes" .null) (by simp [hissues])
      exact absurd rfl hempty
    · obtain ⟨ns, g, c, switches, outgoing, hexamined⟩ := examined_of_validate h hn
      exact ⟨fields, c, rfl, hexamined.load, sound_of_examined hexamined hv⟩
  | _ =>
    cases h
    cases hv

/-- a node as a document has it, with what its shape requires -/
def shapedNode (id name type : String) (parameters : Fields) : Value :=
  .object [(.text "id", .text id), (.text "name", .text name), (.text "type", .text type),
    (.text "position", .list [.int 0, .int 0]), (.text "parameters", .object parameters)]

/-- a start, a switch with one rule, and an end -/
def routedDocument : Fields :=
  [(.text "nodes", .list [
      shapedNode "1" "Start" "n8n-nodes-base.manualTrigger" [],
      shapedNode "2" "Route" "n8n-nodes-base.switch" [(.text "rules", .object [(.text "rules", .list [.object []])])],
      shapedNode "3" "Stop" "n8n-nodes-base.noOp" []]),
    (.text "connections", .object [
      (.text "Start", .object [(.text "main", .list [.list [(Edge.plain "Route" "main" 0).toValue]])]),
      (.text "Route", .object [(.text "main", .list [.list [(Edge.plain "Stop" "main" 0).toValue]])])])]

theorem sound_of_isValid_routedDocument :
    ∃ r, validate .standard (.object routedDocument) = .ok r ∧ r.isValid = true ∧
      ∃ fields c, Value.object routedDocument = .object fields ∧
        Connections.load (Value.field "connections" fields) = .ok c ∧
        Sound (Document.nodesOf (Value.field "nodes" fields)) c := by
  obtain ⟨r, hr, hv⟩ := exists_ok_of_any (p := Report.isValid)
    (by decide +kernel : (validate .standard (.object routedDocument)).toOption.any Report.isValid = true)
  exact ⟨r, hr, hv, sound_of_isValid hr hv⟩

end Validation

end WorkflowGraph
