import WorkflowGraph.PostProcessor
import WorkflowGraph.Proofs.Document
/-
Moving code into parameters. When the parameters of a node have all the code that stands beside them, which holds of
every node that a build makes, moving it only drops it where no check looks.

- `relocateCode_alike`: a check cannot tell the document afterwards from the one before.
-/
namespace WorkflowGraph

namespace PostProcessor

theorem bare_remove {name : String} (h : name ∈ Node.codeFields) (fields : Fields) :
    Fields.bare (Table.remove (.text name) fields) = Fields.bare fields := by
  refine Table.filter_remove (fun k hk => ?_) fields
  rw [offCode, Bool.not_eq_false', List.any_eq_true]
  exact ⟨name, h, hk⟩

theorem bare_put {name : String} (h : name ∉ Node.codeFields) (v : Value) (fields : Fields) :
    Fields.bare (Table.put (.text name) v fields) = Table.put (.text name) v (Fields.bare fields) :=
  Table.filter_put (fun _ hk => Node.offCode_of_not_mem h hk) (Node.offCode_of_not_mem h (BEq.refl _)) fields

/-- code that the parameters have is dropped, and nothing else changes -/
theorem foldl_relocateField {names : List String} (hn : names ⊆ Node.codeFields) {fields params : Fields}
    (h : ∀ name ∈ names, Table.has (Key.text name) fields = true → Table.has (Key.text name) params = true) :
    (names.foldl relocateField (fields, params)).2 = params ∧
      Fields.bare (names.foldl relocateField (fields, params)).1 = Fields.bare fields := by
  induction names generalizing fields with
  | nil => exact ⟨rfl, rfl⟩
  | cons name names ih =>
    rw [List.cons_subset] at hn
    rw [List.forall_mem_cons] at h
    rw [List.foldl_cons, relocateField]
    cases hv : Table.get? (Key.text name) fields with
    | none => exact ih hn.2 h.2
    | some v =>
      have hhas : Table.has (Key.text name) params = true := h.1 (by rw [Table.has_iff_get?, hv]; rfl)
      have hrest : ∀ other ∈ names, Table.has (Key.text other) (Table.remove (.text name) fields) = true →
          Table.has (Key.text other) params = true :=
        fun other hother hrest => h.2 other hother (Table.has_of_has_remove hrest)
      obtain ⟨hparams, hbare⟩ := ih hn.2 hrest
      simp only [hhas, if_true]
      exact ⟨hparams, hbare.trans (bare_remove hn.1 fields)⟩

/-- a node with its code moved is the same apart from the code beside its parameters -/
theorem bare_relocateNode {n : Node} (h : n.Covered) :
    ∃ m : Node, relocateNode n.toValue = m.toValue ∧ m.bare = n.bare := by
  obtain ⟨params, hparams, hcode⟩ := h
  obtain ⟨hsame, hbare⟩ := foldl_relocateField (List.Subset.refl _) hcode
  generalize hmoved : Node.codeFields.foldl relocateField (n.fields, params) = moved at hsame hbare
  have hnode : relocateNode n.toValue = .object (Table.put (.text "parameters") (.object moved.2) moved.1) := by
    simp only [relocateNode, Node.toValue, Value.field, hparams, Option.getD_some, Value.object?]
    rw [hmoved]
  refine ⟨⟨_⟩, hnode, congrArg Node.mk ?_⟩
  rw [bare_put (by decide), hsame, hbare]
  exact Table.put_of_get? (by rw [Node.get?_bare (by decide), hparams])

theorem map_relocateNode {nodes : List Node} (h : ∀ n ∈ nodes, n.Covered) :
    ∃ moved : List Node, (nodes.map Node.toValue).map relocateNode = moved.map Node.toValue ∧
      moved.map Node.bare = nodes.map Node.bare := by
  induction nodes with
  | nil => exact ⟨[], rfl, rfl⟩
  | cons n nodes ih =>
    rw [List.forall_mem_cons] at h
    obtain ⟨m, hm, hbare⟩ := bare_relocateNode h.1
    obtain ⟨moved, hmoved, hrest⟩ := ih h.2
    refine ⟨m :: moved, ?_, ?_⟩
    · rw [List.map_cons, List.map_cons, List.map_cons, hm, hmoved]
    · rw [List.map_cons, List.map_cons, hbare, hrest]

/-- **Moving code is nothing that a check can tell**, as long as parameters have the code beside them. -/
theorem relocateCode_alike {document : Fields} {nodes : List Node} {c : Connections}
    (h : Document.WellBuilt document nodes c) :
    ∃ document', relocateCode (.object document) = .ok (.object document') ∧ Validation.Alike document document' := by
  obtain ⟨moved, hmoved, hbare⟩ := map_relocateNode h.covered
  have hne : (Key.text "nodes" == Key.text "connections") = false := by decide
  have hholds : Document.Holds (Table.put (.text "nodes") (.list (moved.map Node.toValue)) document) moved c := by
    constructor
    · rw [Table.get?_put]
      simp
    · rw [Table.get?_put, hne]
      exact h.atConnections
  refine ⟨Table.put (.text "nodes") (.list (moved.map Node.toValue)) document, ?_, ?_⟩
  · simp only [relocateCode, h.nodes_field, hmoved]
  · have hkeyed := h.canonical.toKeyed
    refine h.toHolds.alike hholds (fun name hname _ => ?_) hbare.symm hkeyed hkeyed (fun _ => rfl) rfl
    rw [Table.get?_put, Key.text_beq_text, decide_eq_false (Ne.symm hname)]
    rfl

theorem eq_of_named {name : String} {finish : PostProcessor} (h : named name = .ok finish) :
    finish = identity ∨ finish = relocateCode := by
  unfold named at h
  split at h
  · rename_i p hp
    cases h
    unfold all at hp
    rw [List.lookup_cons] at hp
    split at hp
    · cases hp
      exact Or.inl rfl
    · rw [List.lookup_cons] at hp
      split at hp
      · cases hp
        exact Or.inr rfl
      · cases hp
  · cases h

/-- **No post-processor that has a name changes what a check finds** in a document that was built. -/
theorem validate_of_named {name : String} {finish : PostProcessor} (hfinish : named name = .ok finish)
    {document : Fields} {nodes : List Node} {c : Connections} (h : Document.WellBuilt document nodes c) {v : Value}
    (hv : finish (.object document) = .ok v) (cfg : BuildConfig) :
    validate cfg v = validate cfg (.object document) := by
  rcases eq_of_named hfinish with rfl | rfl
  · cases hv
    rfl
  · obtain ⟨document', hmoved, halike⟩ := relocateCode_alike h
    cases hmoved.symm.trans hv
    exact (Validation.validate_congr halike cfg).symm

end PostProcessor

end WorkflowGraph
