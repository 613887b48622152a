import Mathlib.Tactic
import WorkflowGraph.Schema.Workflow
import WorkflowGraph.Table
/-
What a schema finds wrong, rule by rule, and what follows for a document in which it finds nothing wrong: its nodes are
objects with names that are texts and not empty, and so are the targets of its edges.

- `violations_elsewhere`: whether something is wrong with a value does not depend on where it stands.
-/
namespace WorkflowGraph

/-! ## Rules -/

theorem rulesViolations_eq_nil_iff {path : List PathStep} {rightType : Bool} {rules : List SchemaRule} {v : Value} :
    rulesViolations path rightType rules v = [] ↔ ∀ rule ∈ rules, rule.messages v = [] ∧ rule.inner path v = [] := by
  induction rules with
  | nil => simp [rulesViolations]
  | cons rule rules ih =>
    rw [rulesViolations, List.append_eq_nil_iff, List.append_eq_nil_iff, List.map_eq_nil_iff, ih, List.forall_mem_cons]

theorem violations_eq_nil_iff {path : List PathStep} {rules : List SchemaRule} {v : Value} :
    (Schema.rules rules).violations path v = [] ↔ ∀ rule ∈ rules, rule.messages v = [] ∧ rule.inner path v = [] := by
  rw [Schema.violations, rulesViolations_eq_nil_iff]

theorem propertyViolations_eq_nil_iff {path : List PathStep} {shapes : List (String × Schema)} {fields : Fields} :
    propertyViolations path shapes fields = [] ↔ ∀ shape ∈ shapes, ∀ v, Table.get? (.text shape.1) fields = some v →
      shape.2.violations (path ++ [.field shape.1]) v = [] := by
  induction shapes with
  | nil => simp [propertyViolations]
  | cons shape shapes ih =>
    obtain ⟨name, schema⟩ := shape
    rw [propertyViolations, List.append_eq_nil_iff, ih, List.forall_mem_cons]
    refine and_congr_left fun _ => ?_
    cases Table.get? (Key.text name) fields with
    | none => simp
    | some v => simp

/-- nothing is wrong with the type of a value of one of the types -/
theorem messages_type_eq_nil_iff {types : List SchemaType} {v : Value} :
    (SchemaRule.type types).messages v = [] ↔ ∃ t ∈ types, t.admits v = true := by
  simp [SchemaRule.messages]

theorem messages_required_eq_nil_iff {names : List String} {fields : Fields} :
    (SchemaRule.required names).messages (.object fields) = [] ↔ ∀ name ∈ names, Table.has (Key.text name) fields := by
  simp [SchemaRule.messages, List.filter_eq_nil_iff]

theorem messages_nonEmpty_eq_nil_iff {s : String} : SchemaRule.nonEmpty.messages (.text s) = [] ↔ s ≠ "" := by
  simp [SchemaRule.messages]

theorem inner_items_eq_nil_iff {path : List PathStep} {shape : Schema} {vs : List Value} :
    (SchemaRule.items shape).inner path (.list vs) = [] ↔
      ∀ x ∈ vs.zipIdx, shape.violations (path ++ [.item x.2]) x.1 = [] := by
  simp [SchemaRule.inner, List.flatMap_eq_nil_iff]

/-! ## Types of values -/

theorem admits_object {v : Value} (h : SchemaType.object.admits v = true) : ∃ fields, v = .object fields := by
  cases v with
  | object fields => exact ⟨fields, rfl⟩
  | _ => cases h

theorem admits_array {v : Value} (h : SchemaType.array.admits v = true) : ∃ items, v = .list items := by
  cases v with
  | list items => exact ⟨items, rfl⟩
  | _ => cases h

theorem admits_string {v : Value} (h : SchemaType.string.admits v = true) : ∃ s, v = .text s := by
  cases v with
  | text s => exact ⟨s, rfl⟩
  | _ => cases h

theorem admits_of_messages_type {t : SchemaType} {v : Value} (h : (SchemaRule.type [t]).messages v = []) :
    t.admits v = true := by
  obtain ⟨t', ht', ha⟩ := messages_type_eq_nil_iff.1 h
  rw [List.mem_singleton.1 ht'] at ha
  exact ha

/-! ## Documents of the right shape -/

/-- a field that an object of the right shape must have is there, and of its own shape -/
theorem field_of_shape {path : List PathStep} {names : List String} {shapes : List (String × Schema)} {v : Value}
    (name : String) (shape : Schema)
    (h : (Schema.rules [.type [.object], .required names, .properties shapes]).violations path v = [])
    (hname : name ∈ names) (hshape : (name, shape) ∈ shapes) :
    ∃ fields w, v = .object fields ∧ Table.get? (.text name) fields = some w ∧
      shape.violations (path ++ [.field name]) w = [] := by
  have rules := violations_eq_nil_iff.1 h
  obtain ⟨fields, rfl⟩ := admits_object (admits_of_messages_type (rules _ (by simp)).1)
  have hhas := messages_required_eq_nil_iff.1 (rules (.required names) (by simp)).1 name hname
  rw [Table.has_iff_get?, Option.isSome_iff_exists] at hhas
  obtain ⟨w, hw⟩ := hhas
  have hprops := (rules (.properties shapes) (by simp)).2
  rw [SchemaRule.inner, propertyViolations_eq_nil_iff] at hprops
  exact ⟨fields, w, rfl, hw, hprops _ hshape w hw⟩

theorem text_of_shape {path : List PathStep} {v : Value}
    (h : (Schema.rules [.type [.string], .nonEmpty]).violations path v = []) : ∃ s, v = .text s ∧ s ≠ "" := by
  have rules := violations_eq_nil_iff.1 h
  obtain ⟨s, rfl⟩ := admits_string (admits_of_messages_type (rules _ (by simp)).1)
  exact ⟨s, rfl, messages_nonEmpty_eq_nil_iff.1 (rules .nonEmpty (by simp)).1⟩

theorem items_of_shape {path : List PathStep} {shape : Schema} {v : Value}
    (h : (Schema.rules [.type [.array], .items shape]).violations path v = []) :
    ∃ items, v = .list items ∧ ∀ w ∈ items, ∃ path, shape.violations path w = [] := by
  have rules := violations_eq_nil_iff.1 h
  obtain ⟨items, rfl⟩ := admits_array (admits_of_messages_type (rules _ (by simp)).1)
  refine ⟨items, rfl, fun w hw => ?_⟩
  obtain ⟨i, hi⟩ := List.mem_iff_getElem?.1 hw
  exact ⟨_, inner_items_eq_nil_iff.1 (rules (.items shape) (by simp)).2 (w, i) (List.mem_zipIdx_iff_getElem?.2 hi)⟩

/-- the name of a node of the right shape is a text and not empty -/
theorem name_of_node_shape {path : List PathStep} {v : Value} (h : Schema.node.violations path v = []) :
    ∃ fields, v = .object fields ∧ ∃ s, Table.get? (.text "name") fields = some (.text s) ∧ s ≠ "" := by
  obtain ⟨fields, w, rfl, hname, hshape⟩ :=
    field_of_shape "name" (.rules [.type [.string], .nonEmpty]) h (by simp) (by simp)
  obtain ⟨s, rfl, hne⟩ := text_of_shape hshape
  exact ⟨fields, rfl, s, hname, hne⟩

/-- the target of an edge of the right shape is a text and not empty -/
theorem target_of_edge_shape {path : List PathStep} {v : Value} (h : Schema.edge.violations path v = []) :
    ∃ fields, v = .object fields ∧ ∃ s, Table.get? (.text "node") fields = some (.text s) ∧ s ≠ "" := by
  obtain ⟨fields, w, rfl, hnode, hshape⟩ :=
    field_of_shape "node" (.rules [.type [.string], .nonEmpty]) h (by simp) (by simp)
  obtain ⟨s, rfl, hne⟩ := text_of_shape hshape
  exact ⟨fields, rfl, s, hnode, hne⟩

/-- the nodes of a document of the right shape are a list of nodes of the right shape -/
theorem nodes_of_workflow_shape {document : Fields} (h : Schema.workflow.violations [] (.object document) = []) :
    ∃ items, Table.get? (.text "nodes") document = some (.list items) ∧
      ∀ v ∈ items, ∃ path, Schema.node.violations path v = [] := by
  obtain ⟨_, nodes, ⟨⟩, hnodes, hshape⟩ :=
    field_of_shape "nodes" Schema.nodeList h (by simp) (by simp)
  obtain ⟨items, rfl, hitems⟩ := items_of_shape hshape
  exact ⟨items, hnodes, hitems⟩

/-- the connections of a document of the right shape are there and of the right shape -/
theorem connections_of_workflow_shape {document : Fields}
    (h : Schema.workflow.violations [] (.object document) = []) :
    ∃ connections, Table.get? (.text "connections") document = some connections ∧
      Schema.adjacency.violations [.field "connections"] connections = [] := by
  obtain ⟨_, connections, ⟨⟩, hconnections, hshape⟩ :=
    field_of_shape "connections" Schema.adjacency h (by simp) (by simp)
  exact ⟨connections, hconnections, hshape⟩

/-! ## Violations and where they are -/

mutual

/-- whether something is wrong with a value does not depend on where it stands -/
theorem violations_elsewhere (path path' : List PathStep) {v : Value} :
    ∀ {shape : Schema}, shape.violations path v = [] → shape.violations path' v = []
  | .rules rules, h => by
    rw [Schema.violations] at h ⊢
    exact rulesViolations_elsewhere path path' h

theorem rulesViolations_elsewhere (path path' : List PathStep) {rightType : Bool} {v : Value} :
    ∀ {rules : List SchemaRule}, rulesViolations path rightType rules v = [] →
      rulesViolations path' rightType rules v = []
  | [], _ => by rw [rulesViolations]
  | rule :: rules, h => by
    rw [rulesViolations, List.append_eq_nil_iff, List.append_eq_nil_iff, List.map_eq_nil_iff] at h ⊢
    exact ⟨⟨h.1.1, inner_elsewhere path path' h.1.2⟩, rulesViolations_elsewhere path path' h.2⟩

theorem inner_elsewhere (path path' : List PathStep) {v : Value} :
    ∀ {rule : SchemaRule}, rule.inner path v = [] → rule.inner path' v = []
  | .properties shapes, h => by
    cases v with
    | object fields =>
      rw [SchemaRule.inner] at h ⊢
      exact propertyViolations_elsewhere path path' h
    | _ => rfl
  | .items shape, h => by
    cases v with
    | list vs =>
      rw [SchemaRule.inner, List.flatMap_eq_nil_iff] at h ⊢
      exact fun x hx => violations_elsewhere _ _ (h x hx)
    | _ => rfl
  | .named shape, h => by
    cases v with
    | object fields =>
      rw [SchemaRule.inner, List.flatMap_eq_nil_iff] at h ⊢
      exact fun x hx => violations_elsewhere _ _ (h x hx)
    | _ => rfl
  | .type _, _ => rfl
  | .required _, _ => rfl
  | .onlyNamed, _ => rfl
  | .nonEmpty, _ => rfl
  | .typeTag, _ => rfl
  | .nonNegative, _ => rfl
  | .minItems _, _ => rfl
  | .maxItems _, _ => rfl

theorem propertyViolations_elsewhere (path path' : List PathStep) {fields : Fields} :
    ∀ {shapes : List (String × Schema)}, propertyViolations path shapes fields = [] →
      propertyViolations path' shapes fields = []
  | [], _ => by rw [propertyViolations]
  | (name, shape) :: shapes, h => by
    rw [propertyViolations, List.append_eq_nil_iff] at h ⊢
    refine ⟨?_, propertyViolations_elsewhere path path' h.2⟩
    cases hget : Table.get? (Key.text name) fields with
    | none => rfl
    | some v =>
      rw [hget] at h
      exact violations_elsewhere _ _ h.1

end

/-! ## Equal violations -/

/-- rules that find the same wrong with two values of the same type -/
theorem violations_congr {path : List PathStep} {rules : List SchemaRule} {v w : Value}
    (hkeeps : keepsType v rules = keepsType w rules)
    (h : ∀ rule ∈ rules, rule.messages v = rule.messages w ∧ rule.inner path v = rule.inner path w) :
    (Schema.rules rules).violations path v = (Schema.rules rules).violations path w := by
  have run : ∀ (rightType : Bool) (rules : List SchemaRule),
      (∀ rule ∈ rules, rule.messages v = rule.messages w ∧ rule.inner path v = rule.inner path w) →
      rulesViolations path rightType rules v = rulesViolations path rightType rules w := by
    intro rightType rules
    induction rules with
    | nil => simp [rulesViolations]
    | cons rule rules ih =>
      intro h
      rw [List.forall_mem_cons] at h
      rw [rulesViolations, rulesViolations, h.1.1, h.1.2, ih h.2]
  rw [Schema.violations, Schema.violations, hkeeps, run _ _ h]

/-- objects with the same fields as far as the shapes go -/
theorem propertyViolations_congr {path : List PathStep} {shapes : List (String × Schema)} {d d' : Fields}
    (h : ∀ shape ∈ shapes, (Table.get? (.text shape.1) d).elim [] (shape.2.violations (path ++ [.field shape.1])) =
      (Table.get? (.text shape.1) d').elim [] (shape.2.violations (path ++ [.field shape.1]))) :
    propertyViolations path shapes d = propertyViolations path shapes d' := by
  induction shapes with
  | nil => simp [propertyViolations]
  | cons shape shapes ih =>
    obtain ⟨name, schema⟩ := shape
    rw [List.forall_mem_cons] at h
    have hfirst := h.1
    rw [propertyViolations, propertyViolations, ih h.2]
    congr 1
    generalize Table.get? (Key.text name) d = found at hfirst ⊢
    generalize Table.get? (Key.text name) d' = found' at hfirst ⊢
    cases found <;> cases found' <;> exact hfirst

theorem messages_required_congr {names : List String} {d d' : Fields}
    (h : ∀ name ∈ names, Table.has (Key.text name) d = Table.has (Key.text name) d') :
    (SchemaRule.required names).messages (.object d) = (SchemaRule.required names).messages (.object d') := by
  simp only [SchemaRule.messages]
  rw [List.filter_congr fun name hname => congrArg not (h name hname)]

/-- objects with the same fields, which are found equally wrong -/
theorem object_violations_congr {path : List PathStep} {names : List String} {shapes : List (String × Schema)}
    {d d' : Fields} (hhas : ∀ name ∈ names, Table.has (Key.text name) d = Table.has (Key.text name) d')
    (hfields : ∀ shape ∈ shapes,
      (Table.get? (.text shape.1) d).elim [] (shape.2.violations (path ++ [.field shape.1])) =
        (Table.get? (.text shape.1) d').elim [] (shape.2.violations (path ++ [.field shape.1]))) :
    (Schema.rules [.type [.object], .required names, .properties shapes]).violations path (.object d) =
      (Schema.rules [.type [.object], .required names, .properties shapes]).violations path (.object d') := by
  refine violations_congr rfl fun rule hrule => ?_
  simp only [List.mem_cons, List.not_mem_nil, or_false] at hrule
  rcases hrule with rfl | rfl | rfl
  · exact ⟨rfl, rfl⟩
  · exact ⟨messages_required_congr hhas, rfl⟩
  · exact ⟨rfl, propertyViolations_congr hfields⟩

/-- documents whose nodes and connections are found equally wrong, and which agree in their other fields -/
theorem workflow_violations_congr {d d' : Fields} {nodes nodes' connections connections' : Value}
    (hothers : ∀ name, name ≠ "nodes" → name ≠ "connections" → Table.get? (.text name) d = Table.get? (.text name) d')
    (hn : Table.get? (.text "nodes") d = some nodes) (hn' : Table.get? (.text "nodes") d' = some nodes')
    (hc : Table.get? (.text "connections") d = some connections)
    (hc' : Table.get? (.text "connections") d' = some connections')
    (hnodes : Schema.nodeList.violations [.field "nodes"] nodes = Schema.nodeList.violations [.field "nodes"] nodes')
    (hconnections : Schema.adjacency.violations [.field "connections"] connections =
      Schema.adjacency.violations [.field "connections"] connections') :
    Schema.workflow.violations [] (.object d) = Schema.workflow.violations [] (.object d') := by
  refine object_violations_congr (fun name hname => ?_) fun shape hshape => ?_
  · simp only [List.mem_cons, List.not_mem_nil, or_false] at hname
    rcases hname with rfl | rfl
    · rw [Table.has_iff_get?, Table.has_iff_get?, hn, hn']
      rfl
    · rw [Table.has_iff_get?, Table.has_iff_get?, hc, hc']
      rfl
  · by_cases hname : shape.1 = "nodes" ∨ shape.1 = "connections"
    · simp only [List.mem_cons, List.not_mem_nil, or_false] at hshape
      rcases hshape with rfl | rfl | rfl | rfl | rfl | rfl | rfl <;> simp_all
    · rw [not_or] at hname
      rw [hothers shape.1 hname.1 hname.2]

/-- one item more, of the right shape -/
theorem nodeList_violations_concat {w : Value} (hw : Schema.node.violations [] w = []) (path : List PathStep)
    (items : List Value) :
    Schema.nodeList.violations path (.list (items ++ [w])) = Schema.nodeList.violations path (.list items) := by
  refine violations_congr rfl fun rule hrule => ?_
  simp only [List.mem_cons, List.not_mem_nil, or_false] at hrule
  rcases hrule with rfl | rfl
  · exact ⟨rfl, rfl⟩
  · refine ⟨rfl, ?_⟩
    simp only [SchemaRule.inner]
    rw [List.zipIdx_append, List.flatMap_append]
    simp [violations_elsewhere [] _ hw]

/-- documents whose nodes are found equally wrong, and which agree in their other fields -/
theorem workflow_violations_of_nodes {d d' : Fields} {nodes nodes' : Value}
    (hothers : ∀ name, name ≠ "nodes" → Table.get? (.text name) d = Table.get? (.text name) d')
    (hn : Table.get? (.text "nodes") d = some nodes) (hn' : Table.get? (.text "nodes") d' = some nodes')
    (hnodes : Schema.nodeList.violations [.field "nodes"] nodes = Schema.nodeList.violations [.field "nodes"] nodes') :
    Schema.workflow.violations [] (.object d) = Schema.workflow.violations [] (.object d') := by
  refine object_violations_congr (fun name _ => ?_) fun shape hshape => ?_
  · rw [Table.has_iff_get?, Table.has_iff_get?]
    by_cases hname : name = "nodes"
    · rw [hname, hn, hn']
      rfl
    · rw [hothers name hname]
  · by_cases hname : shape.1 = "nodes"
    · simp only [List.mem_cons, List.not_mem_nil, or_false] at hshape
      rcases hshape with rfl | rfl | rfl | rfl | rfl | rfl | rfl <;> simp_all
    · rw [hothers shape.1 hname]

/-! ## The violation reported -/

theorem worst_eq_none_iff {violations : List Violation} : worst violations = none ↔ violations = [] := by
  cases violations with
  | nil => simp [worst]
  | cons v rest => simp [worst]

end WorkflowGraph
