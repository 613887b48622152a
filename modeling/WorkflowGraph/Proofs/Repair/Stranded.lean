import WorkflowGraph.Proofs.Repair.Direction
/-
What is still disconnected after a repair. A repair leaves a node alone as soon as any edge leads to its name, even one
whose source is no node, while the check counts edges between nodes only. So a node is still reported when no edge leads
to it and none of its neighbours could be its source, and also when all the edges that lead to it come from names that
no node has, whatever stands to the left of it.

- `disconnected_of_repaired`: the nodes that are reported after a repair.
- `repair_leaves_stranded`: one of them has a left neighbour.
-/
namespace WorkflowGraph

/-! ## Nodes that only unknown sources lead to -/

/-- edges lead to a name, and none of them comes from a node -/
def Document.Stranded (document : Value) (name : String) : Prop :=
  (∃ a, Linked document a name) ∧ ∀ a, Linked document a name → ¬ Known (nodesIn document) a

/-- a name is the target of canonical connections when an edge from some text leads to it -/
theorem Connections.Keyed.isTarget_iff_joins {c : Connections} (h : c.Keyed) {name : String} :
    c.isTarget name = true ↔ ∃ a, c.Joins (.text a) name := by
  rw [isTarget, List.contains_iff_mem, targets, List.mem_map]
  constructor
  · rintro ⟨l, hl, hnode⟩
    obtain ⟨x, hx, hsource, -⟩ := mem_links_iff.1 hl
    obtain ⟨a, ha⟩ := h.texts x hx
    exact ⟨a, h.exists_link_iff.1 ⟨l, hl, hsource.symm.trans ha, hnode⟩⟩
  · rintro ⟨a, hjoins⟩
    obtain ⟨l, hl, -, hnode⟩ := h.exists_link_iff.2 hjoins
    exact ⟨l, hl, hnode⟩

namespace Repair

/-! ## After a repair -/

/-- a node that is no trigger is left without an edge between nodes for one of two reasons -/
theorem Fed.not_reached_iff {cfg : BuildConfig} {s : State} {n : Node} {name : String} (hkeyed : s.connections.Keyed)
    (hfed : Fed cfg n s) (hn : n ∈ s.nodes) (hname : n.name = .text name) (hopen : n.isTrigger = false) :
    ¬ Reached s.nodes s.connections name ↔
      ((∃ a, s.connections.Joins (.text a) name) ∧ ∀ a, s.connections.Joins (.text a) name → ¬ Known s.nodes a) ∨
        ((∀ a, ¬ s.connections.Joins (.text a) name) ∧
          Rows.predecessor id (.whole cfg.rowTolerance) n s.nodes = .ok none) := by
  have htarget : isTarget s.connections n = true ↔ ∃ a, s.connections.Joins (.text a) name := by
    rw [isTarget, hname]
    exact hkeyed.isTarget_iff_joins
  constructor
  · intro hnot
    by_cases hany : ∃ a, s.connections.Joins (.text a) name
    · exact Or.inl ⟨hany, fun a hjoins hknown => hnot ⟨⟨n, hn, hname⟩, a, hknown, hjoins⟩⟩
    · refine Or.inr ⟨not_exists.1 hany, ?_⟩
      rcases hfed with htrigger | hin | hnone
      · rw [hopen] at htrigger
        cases htrigger
      · exact absurd (htarget.1 hin) hany
      · exact hnone
  · rintro (⟨-, hunknown⟩ | ⟨hnone, -⟩) ⟨-, a, hknown, hjoins⟩
    · exact hunknown a hjoins hknown
    · exact hnone a hjoins

/-- **What a repair leaves disconnected.** The nodes that are reported after it, each as one that can be mended, are
those that no edge leads to and that have no left neighbour on their row, and those to which edges lead, but none from a
node. -/
theorem disconnected_of_repaired {cfg : BuildConfig} {document : Value} {r : Repaired} {after : Report}
    (hw : WellNamed (Document.nodesIn document)) (h : repair cfg document = .ok r)
    (hafter : validate cfg r.document = .ok after) (v : Value) :
    (∃ i ∈ after.issues, i.category = .disconnected ∧ i.autofixable = true ∧ i.node = v) ↔
      ∃ n ∈ Document.nodesIn r.document, ∃ name, n.name = .text name ∧ v = .text name ∧ n.isTrigger = false ∧
        (Document.Stranded r.document name ∨
          ((∀ a, ¬ Document.Linked r.document a name) ∧
            Rows.predecessor id (.whole cfg.rowTolerance) n (Document.nodesIn r.document) = .ok none)) := by
  by_cases hn : ∀ fields items, document = .object fields → Value.field "nodes" fields ≠ .list items
  · -- a document without a list of nodes comes back as it is, and nothing in it is disconnected
    have hempty := Document.nodesIn_eq_nil hn
    rw [(repair_skips h hn).1] at hafter ⊢
    constructor
    · rintro ⟨i, hi, hcategory, -⟩
      exact absurd hempty (Validation.of_disconnected_issue hafter hi hcategory).1
    · rintro ⟨n, hmem, -⟩
      rw [hempty] at hmem
      cases hmem
  · push Not at hn
    obtain ⟨fields, items, rfl, hitems⟩ := hn
    have hnamed : WellNamed (Document.nodesOf (Value.field "nodes" fields)) := hw
    rw [hitems] at hnamed
    obtain ⟨start, s, hstart, hs, rfl⟩ := repair_mends h hitems fun n hn => (hnamed.texts n hn).imp fun _ hs => hs.1
    obtain ⟨c, -, hmended⟩ := mended_of_mend hstart hs hnamed
    obtain ⟨-, -, hkept, -⟩ := canonicalize_connections hstart
    obtain ⟨hlist, hnodes, hload⟩ := read_written fields hmended
    have hin : Document.nodesIn (.object (written fields s)) = s.nodes := hnodes
    have hlinked : ∀ a b, Document.Linked (.object (written fields s)) a b ↔ s.connections.Joins (.text a) b :=
      fun a b => (holds_written fields s).linked_iff hmended.canonical hmended.simple
    have hreasons : ∀ n ∈ s.nodes, ∀ name, n.name = .text name → n.isTrigger = false →
        (¬ Reached s.nodes s.connections name ↔ _) := fun n hmem name hname hopen =>
      (fed_of_mend hs (hkept ▸ hnamed) n hmem).not_reached_iff hmended.canonical.toKeyed hmem hname hopen
    simp only [Document.Stranded, hin, hlinked]
    constructor
    · rintro ⟨i, hi, hcategory, -, rfl⟩
      have hconcern := Validation.concern_of_issue hafter hlist hload (hnodes ▸ hmended.named) hi (by simp [hcategory])
        (by simp [hcategory]) (by simp [hcategory])
      rw [hnodes, hcategory] at hconcern
      generalize hv : i.node = v at hconcern
      cases hconcern with
      | @disconnected n name hmem hopen hname hnot =>
        exact ⟨n, hmem, name, hname, rfl, hopen, (hreasons n hmem name hname hopen).1 hnot⟩
    · rintro ⟨n, hmem, name, hname, rfl, hopen, hwhy⟩
      have hconcern : Validation.Concern s.nodes s.connections .disconnected (.text name) :=
        .disconnected hmem hopen hname ((hreasons n hmem name hname hopen).2 hwhy)
      obtain ⟨i, hi, hcategory, hnode⟩ :=
        Validation.issue_of_concern hafter hlist hload (hnodes ▸ hmended.named) (hnodes.symm ▸ hconcern)
      exact ⟨i, hi, hcategory, (Validation.of_disconnected_issue hafter hi hcategory).2, hnode⟩

/-! ## A node that stays disconnected -/

/-- two requests in a row behind the start; the edge to the second one comes from a name that no node has -/
def strandedNodes : List Node := [
  batchesNode "1" "Start" "manualTrigger" 0 0 [],
  batchesNode "2" "Fetch" "noOp" 200 0 [],
  batchesNode "3" "Store" "noOp" 400 0 []]

def strandedConnections : Connections :=
  (Connections.empty.connect (.text "Start") "Fetch" 0).connect (.text "Ghost") "Store" 0

def strandedDocument : Fields := [
  (.text "name", .text "Stranded"), (.text "nodes", .list (strandedNodes.map Node.toValue)),
  (.text "connections", strandedConnections.toValue)]

theorem wellNamed_strandedDocument : WellNamed (Document.nodesIn (.object strandedDocument)) := by
  have hnodes : Document.nodesIn (.object strandedDocument) = strandedNodes := Document.nodesOf_map_toValue strandedNodes
  have hnames : strandedNodes.map Node.name = ["Start", "Fetch", "Store"].map Value.text := rfl
  rw [hnodes]
  exact .of_names hnames (by decide +kernel) (by decide)

/-- the node of a document that has a name, with whether it has a left neighbour on its row -/
def neighboured (cfg : BuildConfig) (document : Value) (name : String) : Bool :=
  (Document.nodesIn document).any fun n => n.name.text? == some name &&
    (Rows.predecessor id (.whole cfg.rowTolerance) n (Document.nodesIn document)).toOption.any Option.isSome

theorem exists_left_of_neighboured {cfg : BuildConfig} {document : Value} {name : String}
    (h : neighboured cfg document name = true) :
    ∃ n ∈ Document.nodesIn document, n.name = .text name ∧ ∃ left,
      Rows.predecessor id (.whole cfg.rowTolerance) n (Document.nodesIn document) = .ok (some left) := by
  obtain ⟨n, hn, h⟩ := List.any_eq_true.1 h
  rw [Bool.and_eq_true, beq_iff_eq] at h
  obtain ⟨found, hfound, hsome⟩ := exists_ok_of_any h.2
  obtain ⟨left, rfl⟩ := Option.isSome_iff_exists.1 hsome
  exact ⟨n, hn, Value.text?_eq_some.1 h.1, left, hfound⟩

/-- the repair leaves the second request without an edge from a node, and the check reports it -/
theorem reports_strandedDocument :
    ∃ r after, repair .standard (.object strandedDocument) = .ok r ∧ validate .standard r.document = .ok after ∧
      neighboured .standard r.document "Store" = true ∧
      ∃ i ∈ after.issues, i.category = .disconnected ∧ i.node = .text "Store" := by
  have hruns : ((repair .standard (.object strandedDocument)).toOption.any fun r =>
      (validate .standard r.document).toOption.any fun after =>
        neighboured .standard r.document "Store" &&
          after.issues.any fun i => i.category = .disconnected && i.node.text? == some "Store") = true := by
    simp only [repair, mend, connectAll_eq]
    decide +kernel
  obtain ⟨r, hr, hvalidated⟩ := exists_ok_of_any hruns
  obtain ⟨after, hafter, hboth⟩ := exists_ok_of_any hvalidated
  rw [Bool.and_eq_true] at hboth
  obtain ⟨i, hi, hissue⟩ := List.any_eq_true.1 hboth.2
  rw [Bool.and_eq_true, decide_eq_true_iff, beq_iff_eq] at hissue
  exact ⟨r, after, hr, hafter, hboth.1, i, hi, hissue.1, Value.text?_eq_some.1 hissue.2⟩

/-- **A node can stay disconnected beside its left neighbour**: the edge that no node has to it keeps the repair away. -/
theorem repair_leaves_stranded :
    WellNamed (Document.nodesIn (.object strandedDocument)) ∧
      ∃ r after, repair .standard (.object strandedDocument) = .ok r ∧ validate .standard r.document = .ok after ∧
        ∃ i ∈ after.issues, i.category = .disconnected ∧ i.autofixable = true ∧
          ∃ n ∈ Document.nodesIn r.document, n.name = i.node ∧ ∃ left,
            Rows.predecessor id (.whole BuildConfig.standard.rowTolerance) n (Document.nodesIn r.document) =
              .ok (some left) := by
  obtain ⟨r, after, hr, hafter, hneighboured, i, hi, hcategory, hnode⟩ := reports_strandedDocument
  obtain ⟨n, hn, hname, left, hleft⟩ := exists_left_of_neighboured hneighboured
  have hfixable := (Validation.of_disconnected_issue hafter hi hcategory).2
  exact ⟨wellNamed_strandedDocument, r, after, hr, hafter, i, hi, hcategory, hfixable, n, hn,
    hname.trans hnode.symm, left, hleft⟩

/-- in that document the node is one of those that the edges of no node lead to -/
theorem disconnected_of_repaired_strandedDocument :
    WellNamed (Document.nodesIn (.object strandedDocument)) ∧
      ∃ r after, repair .standard (.object strandedDocument) = .ok r ∧ validate .standard r.document = .ok after ∧
        ∀ v, (∃ i ∈ after.issues, i.category = .disconnected ∧ i.autofixable = true ∧ i.node = v) ↔
          ∃ n ∈ Document.nodesIn r.document, ∃ name, n.name = .text name ∧ v = .text name ∧ n.isTrigger = false ∧
            (Document.Stranded r.document name ∨
              ((∀ a, ¬ Document.Linked r.document a name) ∧
                Rows.predecessor id (.whole BuildConfig.standard.rowTolerance) n (Document.nodesIn r.document) =
                  .ok none)) := by
  obtain ⟨r, after, hr, hafter, -⟩ := reports_strandedDocument
  exact ⟨wellNamed_strandedDocument, r, after, hr, hafter,
    disconnected_of_repaired wellNamed_strandedDocument hr hafter⟩

end Repair

end WorkflowGraph
