import WorkflowGraph.Proofs.Schema
import WorkflowGraph.Proofs.Validation.Concerns
/-
How many issues a report has. A check finds issues of its own category only, and the category decides how severe they
are, so that errors and warnings are counted category by category. In a document whose nodes have proper names no two
issues of a structural category are about the same node or name: of two such reports, the one with fewer concerns has
fewer issues.

- `length_errors`, `length_warnings`: errors and warnings by category.
- `nodup_about`: what the structural issues are about.
- `count_schema_eq_zero_iff`: the shape of a document has at most one issue.
- `count_switch`: the issues about switches are counted on their ports.
-/
namespace WorkflowGraph

/-- how severe it is what a check finds -/
def IssueCategory.severity : IssueCategory → Severity
  | .noOutgoing => .warning
  | .parameters => .warning
  | _ => .error

namespace Report

/-- the issues of one category -/
def ofCategory (r : Report) (k : IssueCategory) : List Issue := r.issues.filter (·.category = k)

def count (r : Report) (k : IssueCategory) : Nat := (r.ofCategory k).length

/-- the nodes and names that the issues of one category are about -/
def about (r : Report) (k : IssueCategory) : List Value := (r.ofCategory k).map (·.node)

theorem length_about (r : Report) (k : IssueCategory) : (r.about k).length = r.count k := List.length_map _

theorem mem_about {r : Report} {k : IssueCategory} {v : Value} :
    v ∈ r.about k ↔ ∃ i ∈ r.issues, i.category = k ∧ i.node = v := by
  simp [about, ofCategory, and_assoc]

end Report

namespace Validation

/-! ## Categories -/

/-- the checks of a document with nodes in their order, by the category of what they find -/
def checks : List IssueCategory :=
  [.schema, .trigger, .names, .dangling, .triggerIncoming, .disconnected, .switch, .noOutgoing, .parameters]

/-- what each check of a document with nodes finds -/
def found (document : Fields) (ns : List Named) (g : Graph) (c : Connections) (switches outgoing : List (List Issue)) :
    IssueCategory → List Issue
  | .schema => schemaIssues document
  | .empty => []
  | .trigger => triggerIssues ns
  | .names => nameIssues ns
  | .dangling => danglingIssues (ns.map (·.key)) [] (references c)
  | .triggerIncoming => incomingIssues g (triggerKeys ns)
  | .disconnected => disconnectedIssues g (triggerKeys ns) ns
  | .switch => switches.flatten
  | .noOutgoing => outgoing.flatten
  | .parameters => ns.flatMap parameterIssues

/-- among what several checks find, a category is what its own check finds -/
theorem filter_category {part : IssueCategory → List Issue} (hpart : ∀ k, ∀ i ∈ part k, i.category = k)
    {ks : List IssueCategory} (hks : ks.Nodup) (k : IssueCategory) :
    (ks.flatMap part).filter (·.category = k) = if k ∈ ks then part k else [] := by
  induction ks with
  | nil => rfl
  | cons k' ks ih =>
    rw [List.nodup_cons] at hks
    rw [List.flatMap_cons, List.filter_append, ih hks.2]
    by_cases hk : k' = k
    · subst hk
      have hall : (part k').filter (·.category = k') = part k' :=
        List.filter_eq_self.2 fun i hi => by simpa using hpart k' i hi
      rw [hall, if_neg hks.1, if_pos List.mem_cons_self, List.append_nil]
    · have hnone : (part k').filter (·.category = k) = [] :=
        List.filter_eq_nil_iff.2 fun i hi => by simpa [hpart k' i hi] using hk
      rw [hnone, List.nil_append]
      simp [Ne.symm hk]

section

variable {cfg : BuildConfig} {document : Fields} {r : Report} {ns : List Named} {g : Graph} {c : Connections}
  {switches outgoing : List (List Issue)} (h : Examined cfg document r ns g c switches outgoing)

include h

theorem Examined.issues_eq : r.issues = checks.flatMap (found document ns g c switches outgoing) := by
  rw [h.issues]
  simp [checks, found]

/-- a check finds issues of its category, as severe as these are -/
theorem Examined.found_spec (k : IssueCategory) :
    ∀ i ∈ found document ns g c switches outgoing k, i.category = k ∧ i.severity = k.severity := by
  intro i hi
  cases k with
  | schema => exact (of_mem_schemaIssues hi).symm
  | empty => cases hi
  | trigger =>
    obtain ⟨-, rfl⟩ := mem_triggerIssues.1 hi
    exact ⟨rfl, rfl⟩
  | names => exact (of_mem_nameIssues hi).symm
  | dangling =>
    obtain ⟨ref, -, -, message, rfl⟩ := of_mem_danglingIssues hi
    exact ⟨rfl, rfl⟩
  | triggerIncoming =>
    obtain ⟨s, -, -, rfl⟩ := mem_incomingIssues.1 hi
    exact ⟨rfl, rfl⟩
  | disconnected =>
    obtain ⟨x, -, -, rfl⟩ := mem_disconnectedIssues.1 hi
    exact ⟨rfl, rfl⟩
  | switch =>
    obtain ⟨l, hl, hi⟩ := List.mem_flatten.1 hi
    obtain ⟨x, -, hx⟩ := exists_of_mem_mapM h.ports hl
    exact (of_mem_switchIssues hx hi).symm
  | noOutgoing =>
    obtain ⟨l, hl, hi⟩ := List.mem_flatten.1 hi
    obtain ⟨x, -, hx⟩ := exists_of_mem_mapM h.outputs hl
    obtain ⟨hseverity, hcategory, -⟩ := of_mem_outgoingIssues hx hi
    exact ⟨hcategory, hseverity⟩
  | parameters =>
    obtain ⟨x, -, hi⟩ := List.mem_flatMap.1 hi
    obtain ⟨-, rfl⟩ := mem_parameterIssues.1 hi
    exact ⟨rfl, rfl⟩

/-- the issues of a category are what its check found -/
theorem Examined.ofCategory_eq (k : IssueCategory) :
    r.ofCategory k = found document ns g c switches outgoing k := by
  rw [Report.ofCategory, h.issues_eq, filter_category (fun k i hi => (h.found_spec k i hi).1) (by decide)]
  split
  · rfl
  · cases k <;> first | rfl | simp [checks] at *

end

/-- a document without nodes has issues about its shape, and one that it has none -/
theorem ofCategory_without_nodes {cfg : BuildConfig} {document : Fields} {r : Report}
    (h : validate cfg (.object document) = .ok r) (hn : Document.nodesOf (Value.field "nodes" document) = [])
    (k : IssueCategory) :
    r.ofCategory k = if k = .schema then schemaIssues document
      else if k = .empty then [.error .empty "Workflow has no nodes" .null] else [] := by
  rw [Report.ofCategory, validate_without_nodes h hn, List.filter_append]
  by_cases hk : k = .schema
  · have hall : (schemaIssues document).filter (·.category = k) = schemaIssues document :=
      List.filter_eq_self.2 fun i hi => by simpa [hk] using (of_mem_schemaIssues hi).2
    rw [hall, if_pos hk]
    simp [hk, Issue.error]
  · have hnone : (schemaIssues document).filter (·.category = k) = [] :=
      List.filter_eq_nil_iff.2 fun i hi => by simpa [(of_mem_schemaIssues hi).2] using Ne.symm hk
    rw [hnone, if_neg hk, List.nil_append, List.filter_singleton]
    simp [Issue.error, eq_comm]

/-! ## Errors and warnings -/

/-- the category of an issue decides how severe it is -/
theorem severity_of_issue {cfg : BuildConfig} {document : Fields} {r : Report}
    (h : validate cfg (.object document) = .ok r) : ∀ i ∈ r.issues, i.severity = i.category.severity := by
  intro i hi
  by_cases hn : Document.nodesOf (Value.field "nodes" document) = []
  · rw [validate_without_nodes h hn] at hi
    rcases List.mem_append.1 hi with hi | hi
    · rw [(of_mem_schemaIssues hi).1, (of_mem_schemaIssues hi).2]
      rfl
    · rw [List.mem_singleton.1 hi]
      rfl
  · obtain ⟨ns, g, c, switches, outgoing, hexamined⟩ := examined_of_validate h hn
    rw [hexamined.issues_eq] at hi
    obtain ⟨k, -, hi⟩ := List.mem_flatMap.1 hi
    obtain ⟨hcategory, hseverity⟩ := hexamined.found_spec k i hi
    rw [hseverity, hcategory]

theorem count_cons (i : Issue) (issues : List Issue) (k : IssueCategory) :
    Report.count ⟨i :: issues⟩ k = Report.count ⟨issues⟩ k + if i.category = k then 1 else 0 := by
  unfold Report.count Report.ofCategory
  rw [List.filter_cons]
  split <;> simp_all

/-- as many issues are of a severity as its categories count together -/
theorem length_severity {r : Report} (h : ∀ i ∈ r.issues, i.severity = i.category.severity) (severity : Severity) :
    (r.issues.filter (·.severity = severity)).length =
      (((.empty :: checks).filter (·.severity = severity)).map r.count).sum := by
  obtain ⟨issues⟩ := r
  induction issues with
  | nil => cases severity <;> rfl
  | cons i issues ih =>
    obtain ⟨hi, hrest⟩ := List.forall_mem_cons.1 h
    have hsum := ih hrest
    simp only [List.filter_cons, hi]
    cases severity <;> cases hk : i.category <;>
      simp [checks, IssueCategory.severity, count_cons, hk] at hsum ⊢ <;> omega

/-- errors category by category -/
theorem length_errors {r : Report} (h : ∀ i ∈ r.issues, i.severity = i.category.severity) :
    r.errors.length = r.count .schema + r.count .empty + r.count .trigger + r.count .names + r.count .dangling +
      r.count .triggerIncoming + r.count .disconnected + r.count .switch := by
  rw [Report.errors, length_severity h]
  simp [checks, IssueCategory.severity]
  omega

/-- warnings category by category -/
theorem length_warnings {r : Report} (h : ∀ i ∈ r.issues, i.severity = i.category.severity) :
    r.warnings.length = r.count .noOutgoing + r.count .parameters := by
  rw [Report.warnings, length_severity h]
  rfl

/-! ## What issues are about -/

/-- every unknown end of an edge is reported once -/
theorem nodup_danglingIssues {known reported : List Key} {refs : List (Key × Link)}
    (htexts : ∀ r ∈ refs, ∃ s, r.1 = .text s) :
    ((danglingIssues known reported refs).map (·.node)).Nodup ∧
      ∀ s, .text s ∈ reported → .text s ∉ (danglingIssues known reported refs).map (·.node) := by
  induction refs generalizing reported with
  | nil => simp [danglingIssues]
  | cons r refs ih =>
    obtain ⟨⟨s, hs⟩, hrest⟩ := List.forall_mem_cons.1 htexts
    unfold danglingIssues
    split
    · exact ih hrest
    · rename_i hnew
      rw [Bool.or_eq_true, not_or] at hnew
      obtain ⟨hnodup, hfresh⟩ := @ih (r.1 :: reported) hrest
      rw [hs] at hnew hnodup hfresh ⊢
      simp only [List.map_cons, List.nodup_cons, List.mem_cons, not_or]
      refine ⟨⟨hfresh s List.mem_cons_self, hnodup⟩, fun t ht => ⟨?_, hfresh t (List.mem_cons_of_mem _ ht)⟩⟩
      rintro heq
      obtain rfl : t = s := Value.text.inj heq
      exact hnew.2 (List.contains_iff_exists_mem_beq.2 ⟨_, ht, BEq.refl _⟩)

/-- a node is reported at most once for its parameters -/
theorem about_parameterIssues {ns : List Named} (hkeys : ∀ x ∈ ns, x.node.name.toKey = .ok x.key) :
    (ns.flatMap parameterIssues).map (·.node) =
      (ns.filter fun x => !(Parameters.missing x.node).isEmpty).map (·.node.name) := by
  induction ns with
  | nil => rfl
  | cons x ns ih =>
    rw [List.forall_mem_cons] at hkeys
    rw [List.flatMap_cons, List.map_append, ih hkeys.2, List.filter_cons]
    by_cases hnone : Parameters.missing x.node = []
    · simp [parameterIssues, hnone]
    · simp [parameterIssues, hnone, Value.ofKey_of_toKey hkeys.1]

/-- **No two issues of one category are about the same node or name**, as far as the structure goes. -/
theorem nodup_about {cfg : BuildConfig} {document : Fields} {r : Report}
    (h : validate cfg (.object document) = .ok r)
    (hw : WellNamed (Document.nodesOf (Value.field "nodes" document))) {k : IssueCategory}
    (hk : k ∈ [.empty, .trigger, .names, .dangling, .disconnected, .parameters]) : (r.about k).Nodup := by
  by_cases hn : Document.nodesOf (Value.field "nodes" document) = []
  · have hshape : k ≠ .schema := by
      rintro rfl
      simp at hk
    rw [Report.about, ofCategory_without_nodes h hn, if_neg hshape]
    split
    · exact List.nodup_singleton _
    · exact List.nodup_nil
  · obtain ⟨ns, g, c, switches, outgoing, hexamined⟩ := examined_of_validate h hn
    obtain ⟨hnodes, hkeys⟩ := named_spec hexamined.nodes
    rw [← hnodes] at hw
    have hdistinct : (ns.map fun x => x.node.name).Nodup := by
      have hnames := hw.distinct
      rwa [List.map_map] at hnames
    rw [Report.about, hexamined.ofCategory_eq]
    simp only [List.mem_cons, List.not_mem_nil, or_false] at hk
    rcases hk with rfl | rfl | rfl | rfl | rfl | rfl
    · exact List.nodup_nil
    · show ((triggerIssues ns).map _).Nodup
      unfold triggerIssues
      split
      · exact List.nodup_singleton _
      · exact List.nodup_nil
    · show ((nameIssues ns).map _).Nodup
      rw [nameIssues_eq_nil hkeys hw]
      exact List.nodup_nil
    · refine (nodup_danglingIssues fun ref href => ?_).1
      obtain ⟨-, -, s, -, -, hs⟩ := exists_text_of_mem_references (Connections.load_form hexamined.load).1.toKeyed href
      exact ⟨s, hs⟩
    · have hnames : (disconnectedIssues g (triggerKeys ns) ns).map (·.node) =
          (ns.filter (isDisconnected g (triggerKeys ns))).map fun x => x.node.name := by
        rw [disconnectedIssues, List.map_map]
        exact List.map_congr_left fun x hx => Value.ofKey_of_toKey (hkeys x (List.mem_of_mem_filter hx))
      show ((disconnectedIssues g (triggerKeys ns) ns).map _).Nodup
      rw [hnames]
      exact hdistinct.sublist (List.filter_sublist.map _)
    · show ((ns.flatMap parameterIssues).map _).Nodup
      rw [about_parameterIssues hkeys]
      exact hdistinct.sublist (List.filter_sublist.map _)

/-! ## Shape -/

theorem count_schema {cfg : BuildConfig} {document : Fields} {r : Report}
    (h : validate cfg (.object document) = .ok r) : r.count .schema = (schemaIssues document).length := by
  by_cases hn : Document.nodesOf (Value.field "nodes" document) = []
  · rw [Report.count, ofCategory_without_nodes h hn, if_pos rfl]
  · obtain ⟨ns, g, c, switches, outgoing, hexamined⟩ := examined_of_validate h hn
    rw [Report.count, hexamined.ofCategory_eq]
    rfl

/-- a document of the right shape has no issue about it -/
theorem count_schema_eq_zero_iff {cfg : BuildConfig} {document : Fields} {r : Report}
    (h : validate cfg (.object document) = .ok r) :
    r.count .schema = 0 ↔ Schema.workflow.violations [] (.object document) = [] := by
  rw [count_schema h, ← worst_eq_none_iff, schemaIssues]
  cases worst (Schema.workflow.violations [] (.object document)) <;> simp

/-- the shape is reported once -/
theorem count_schema_le_one {cfg : BuildConfig} {document : Fields} {r : Report}
    (h : validate cfg (.object document) = .ok r) : r.count .schema ≤ 1 := by
  rw [count_schema h, schemaIssues]
  cases worst (Schema.workflow.violations [] (.object document)) <;> simp

/-! ## Switches -/

theorem length_emptyPorts (first : Nat) (ports : List Port) :
    (emptyPorts first ports).length = ports.countP List.isEmpty := by
  induction ports generalizing first with
  | nil => rfl
  | cons p ports ih =>
    rw [emptyPorts, List.countP_cons]
    split
    · rw [List.length_cons, ih]
    · rw [ih, Nat.add_zero]

/-- how many issues a switch with some main ports has: one for their number, and one for each empty port -/
def portFaults (n : Node) (ports : List Port) : Nat :=
  match n.isSwitch, declaredBranches n with
  | true, .ok declared => (if declared ≠ 0 ∧ ports.length ≠ declared then 1 else 0) + ports.countP List.isEmpty
  | _, _ => 0

theorem length_switchIssues {c : Connections} {x : Named} {l : List Issue} (h : switchIssues c x = .ok l) :
    l.length = portFaults x.node (c.ports x.key mainType) := by
  unfold switchIssues at h
  unfold portFaults
  cases hswitch : x.node.isSwitch with
  | false =>
    rw [hswitch] at h
    cases h
    rfl
  | true =>
    rw [hswitch] at h
    obtain ⟨declared, hdeclared, h⟩ := bind_eq_ok.1 h
    cases h
    rw [hdeclared, List.length_append, List.length_map, length_emptyPorts]
    simp only [apply_ite List.length, List.length_singleton, List.length_nil]

/-- a node that is no switch has no issue as one -/
theorem portFaults_of_not_switch {n : Node} (h : n.isSwitch = false) (ports : List Port) : portFaults n ports = 0 := by
  simp [portFaults, h]

/-- the issues about switches, node by node -/
theorem Examined.count_switch {cfg : BuildConfig} {document : Fields} {r : Report} {ns : List Named} {g : Graph}
    {c : Connections} {switches outgoing : List (List Issue)} (h : Examined cfg document r ns g c switches outgoing) :
    r.count .switch = (ns.map fun x => portFaults x.node (c.ports x.key mainType)).sum := by
  rw [Report.count, h.ofCategory_eq]
  show switches.flatten.length = _
  have hports := h.ports
  clear h
  induction ns generalizing switches with
  | nil =>
    cases hports
    rfl
  | cons x ns ih =>
    obtain ⟨l, rest, hl, hrest, rfl⟩ := mapM_cons_eq_ok.1 hports
    rw [List.flatten_cons, List.length_append, List.map_cons, List.sum_cons, length_switchIssues hl, ih hrest]

/-- **The issues about switches are counted on their ports.** -/
theorem count_switch {cfg : BuildConfig} {document : Fields} {r : Report} {nodes : List Node} {c : Connections}
    (h : validate cfg (.object document) = .ok r) (hn : Document.nodesOf (Value.field "nodes" document) = nodes)
    (hload : Connections.load (Value.field "connections" document) = .ok c) (hw : WellNamed nodes) :
    r.count .switch = (nodes.map fun n => portFaults n (c.ports (.text n.name.toText) mainType)).sum := by
  by_cases hnil : nodes = []
  · rw [Report.count, ofCategory_without_nodes h (hn.trans hnil), hnil]
    rfl
  · obtain ⟨ns, g, c', switches, outgoing, hexamined⟩ := examined_of_validate h (hn ▸ hnil)
    cases hload.symm.trans hexamined.load
    obtain ⟨hnodes, hkeys⟩ := named_spec hexamined.nodes
    rw [hn] at hnodes
    rw [hexamined.count_switch, ← hnodes, List.map_map]
    refine congrArg List.sum (List.map_congr_left fun x hx => ?_)
    obtain ⟨name, hname, -⟩ := hw.texts x.node (hnodes ▸ List.mem_map_of_mem hx)
    have hkey := hkeys x hx
    rw [hname, Value.toKey_text] at hkey
    show _ = portFaults x.node (c.ports (.text x.node.name.toText) mainType)
    rw [← Except.ok.inj hkey, hname]
    rfl

end Validation

end WorkflowGraph
