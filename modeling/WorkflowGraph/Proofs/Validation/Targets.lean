import WorkflowGraph.Proofs.Connections.Written
import WorkflowGraph.Proofs.Validation.Invariance
import WorkflowGraph.Proofs.Validation.Soundness
/-
The descriptors of a valid document. The shape of a document looks at its connections as they are written, the check of
their ends at what is read from them. A descriptor whose target is blank has the right shape and is not read, so that
neither finds anything wrong with it.

- `validate_legible`: a document of the right shape has the same report without such descriptors.
- `targets_of_isValid`: in a document reported valid every descriptor leads to a node or is one of these.
- `isValid_strayDocument`: a valid document with a descriptor that leads nowhere.
-/
namespace WorkflowGraph

namespace Validation

open Connections

/-- a descriptor names a target of a kind -/
def Names (P : String → Prop) (d : Value) : Prop :=
  ∃ fields s, d = .object fields ∧ Table.get? (.text "node") fields = some (.text s) ∧ P s

/-- what is read from a descriptor that names a target is that target, unless it is blank -/
theorem targetName?_eq {fields : Fields} {s : String} (h : Table.get? (.text "node") fields = some (.text s)) :
    targetName? (.object fields) = if Text.isBlankText s then none else some s := by
  have hfirst : firstField ["node", "targetName", "name"] fields = .text s := by
    rw [firstField, List.findSome?_cons, h]
    rfl
  rw [targetName?, hfirst]

theorem names_of_isShaped {d : Value} (h : IsShaped d) : Names (· ≠ "") d := by
  obtain ⟨fields, rfl, s, hs, hne⟩ := target_of_edge_shape h
  exact ⟨fields, s, rfl, hs, hne⟩

/-! ## Documents without descriptors that cannot be read -/

/-- the document with its connections less the descriptors that cannot be read -/
def legibleDocument (document : Fields) : Fields :=
  Table.put (.text "connections") (legible (Value.field "connections" document)) document

section

variable {document : Fields}

theorem inFull_of_schemaIssues (hd : (Value.object document).Unambiguous) (hkeys : Schema.keysAreTexts document = true)
    (hshape : schemaIssues document = []) : InFull IsShaped (Value.field "connections" document) := by
  obtain ⟨connections, hget, hviolations⟩ := connections_of_workflow_shape (schemaIssues_eq_nil hshape)
  have hfield : Value.field "connections" document = connections := by rw [Value.field, hget, Option.getD_some]
  rw [hfield]
  refine inFull_of_shape hviolations (hfield ▸ hd.field "connections") ?_
  rintro sources rfl e he
  simp only [Schema.keysAreTexts, hfield, Bool.and_eq_true, List.all_eq_true] at hkeys
  refine ⟨exists_text_of_isText (hkeys.1 e he), fun byType hbyType f hf => ?_⟩
  have htypes := hkeys.2 e he
  rw [hbyType] at htypes
  exact exists_text_of_isText (List.all_eq_true.1 htypes f hf)

theorem get?_legibleDocument {name : String} (h : name ≠ "connections") :
    Table.get? (.text name) (legibleDocument document) = Table.get? (.text name) document := by
  rw [legibleDocument, Table.get?_put, Key.text_beq_text, if_neg (by simpa using h.symm)]

theorem connections_legibleDocument :
    Value.field "connections" (legibleDocument document) = legible (Value.field "connections" document) := by
  rw [Value.field, legibleDocument, Table.get?_put, if_pos (by simp), Option.getD_some]

theorem keysAreTexts_of_inFull {P : Value → Prop} (h : InFull P (Value.field "connections" document)) :
    Schema.keysAreTexts document = true := by
  obtain ⟨sources, hfield, -, hsources⟩ := h
  simp only [Schema.keysAreTexts, hfield, Bool.and_eq_true, List.all_eq_true]
  constructor
  · intro e he
    obtain ⟨source, hsource, -⟩ := hsources e he
    rw [hsource]
    rfl
  · intro e he
    obtain ⟨-, -, byType, hbyType, -, htypes⟩ := hsources e he
    rw [hbyType]
    refine List.all_eq_true.2 fun f hf => ?_
    obtain ⟨portType, hportType, -⟩ := htypes f hf
    rw [hportType]
    rfl

/-- a check cannot tell a document of the right shape from the one without the descriptors that cannot be read -/
theorem alike_legibleDocument (hshape : schemaIssues document = [])
    (h : InFull IsShaped (Value.field "connections" document)) : Alike (legibleDocument document) document := by
  have hrules := schemaIssues_eq_nil hshape
  obtain ⟨items, hitems, -⟩ := nodes_of_workflow_shape hrules
  obtain ⟨connections, hconnections, -⟩ := connections_of_workflow_shape hrules
  have hfield : Value.field "connections" document = connections := by rw [Value.field, hconnections, Option.getD_some]
  have hlegible : Table.get? (.text "connections") (legibleDocument document) = some (legible connections) := by
    rw [legibleDocument, Table.get?_put, if_pos (by simp), hfield]
  have hnodes : Table.get? (.text "nodes") (legibleDocument document) = Table.get? (.text "nodes") document :=
    get?_legibleDocument (by decide)
  have hsame : schemaIssues (legibleDocument document) = schemaIssues document := by
    unfold schemaIssues
    rw [workflow_violations_congr (fun name _ hname => get?_legibleDocument hname) (hnodes.trans hitems) hitems hlegible
      hconnections rfl (adjacency_violations_legible (hfield ▸ h) _)]
  have hnodesOf : Document.nodesOf (Value.field "nodes" (legibleDocument document)) =
      Document.nodesOf (Value.field "nodes" document) := by rw [Value.field, Value.field, hnodes]
  refine ⟨?_, hsame, ?_, ?_⟩
  · rw [keysAreTexts_of_inFull h, keysAreTexts_of_inFull (P := fun d => IsShaped d ∧ isLegible d = true)]
    rw [connections_legibleDocument]
    exact h.legible
  · exact ⟨_, _, nodes_eq_nodesOf_of_shape (hsame.trans hshape), nodes_eq_nodesOf_of_shape hshape, rfl, rfl,
      by rw [hnodesOf]⟩
  · rw [connections_legibleDocument, load, load, normalize_legible h]

/-- **Descriptors that cannot be read do not count**: a document of the right shape has the same report without them. -/
theorem validate_legible (hd : (Value.object document).Unambiguous) (hkeys : Schema.keysAreTexts document = true)
    (hshape : schemaIssues document = []) (cfg : BuildConfig) :
    validate cfg (.object (legibleDocument document)) = validate cfg (.object document) :=
  validate_congr (alike_legibleDocument hshape (inFull_of_schemaIssues hd hkeys hshape)) cfg

end

/-! ## Valid documents -/

/-- a valid document has nodes, and all checks were made -/
theorem examined_of_isValid {cfg : BuildConfig} {document : Fields} {r : Report}
    (h : validate cfg (.object document) = .ok r) (hv : r.isValid = true) :
    ∃ ns g c switches outgoing, Examined cfg document r ns g c switches outgoing := by
  refine examined_of_validate h fun hn => ?_
  have hissues := validate_without_nodes h hn
  exact not_error_of_isValid hv (i := .error .empty "Workflow has no nodes" .null) (by simp [hissues]) rfl

theorem keysAreTexts_of_validate {cfg : BuildConfig} {document : Fields} {r : Report}
    (h : validate cfg (.object document) = .ok r) : Schema.keysAreTexts document = true := by
  by_contra hnot
  rw [validate, if_pos (by simpa using hnot)] at h
  cases h

/-- **Every target of a valid document is a node or blank.** The connections of a document reported valid are written in
full, every descriptor names a target that is not empty, and this is the name of a node unless it consists of blanks.
Those that consist of blanks are not seen by validation: without these descriptors, whether or not they name nodes, the
document has the same report, and all the others lead to nodes. -/
theorem targets_of_isValid {cfg : BuildConfig} {document : Value} {r : Report} (hd : document.Unambiguous)
    (h : validate cfg document = .ok r) (hv : r.isValid = true) :
    ∃ fields, document = .object fields ∧
      InFull (Names fun s => s ≠ "" ∧ (Text.isBlankText s = false → Known (Document.nodesIn document) s))
        (Value.field "connections" fields) ∧
      InFull (Names (Known (Document.nodesIn document))) (legible (Value.field "connections" fields)) ∧
      validate cfg (.object (legibleDocument fields)) = .ok r := by
  cases document with
  | object fields =>
    have hkeys := keysAreTexts_of_validate h
    obtain ⟨ns, g, c, switches, outgoing, hexamined⟩ := examined_of_isValid h hv
    obtain ⟨hshape, -⟩ := clean_of_isValid hexamined hv
    have hknown : ∀ name ∈ c.targets, Known (Document.nodesIn (.object fields)) name := by
      intro name hname
      obtain ⟨l, hl, rfl⟩ := List.mem_map.1 hname
      exact (sound_of_examined hexamined hv).target l hl
    have hloaded := inFull_of_load (inFull_of_schemaIssues hd hkeys hshape) hexamined.load
    have hwritten : InFull (Names fun s => s ≠ "" ∧
        (Text.isBlankText s = false → Known (Document.nodesIn (.object fields)) s)) (Value.field "connections" fields) := by
      refine hloaded.imp fun d hd => ?_
      obtain ⟨dfields, s, rfl, hnode, hne⟩ := names_of_isShaped hd.1
      refine ⟨dfields, s, rfl, hnode, hne, fun hs => hknown s (hd.2 s ?_)⟩
      rw [targetName?_eq hnode, hs]
      rfl
    refine ⟨fields, rfl, hwritten, hwritten.legible.imp ?_, (validate_legible hd hkeys hshape cfg).trans h⟩
    rintro _ ⟨⟨dfields, s, rfl, hnode, -, hs⟩, hlegible⟩
    refine ⟨dfields, s, rfl, hnode, hs ?_⟩
    rw [isLegible, targetName?_eq hnode] at hlegible
    by_contra hblank
    simp [hblank] at hlegible
  | _ =>
    cases h
    cases hv

/-- a start that leads to a node and, by a second descriptor on the same port, to a blank -/
def strayDocument : Fields :=
  [(.text "nodes", .list [
      shapedNode "1" "Start" "n8n-nodes-base.manualTrigger" [], shapedNode "2" "Fetch" "n8n-nodes-base.noOp" []]),
    (.text "connections", .object [
      (.text "Start", .object [(.text "main", .list [.list [
        (Edge.plain "Fetch" "main" 0).toValue, (Edge.plain " " "main" 0).toValue]])])])]

theorem unambiguous_strayDocument : (Value.object strayDocument).Unambiguous := by
  simp [strayDocument, shapedNode, Edge.plain, Edge.toValue, Table.Distinct, Key.text_beq_text]

theorem exists_validate_strayDocument :
    ∃ r, validate .standard (.object strayDocument) = .ok r ∧ r.isValid = true :=
  exists_ok_of_any
    (by decide +kernel : (validate .standard (.object strayDocument)).toOption.any Report.isValid = true)

theorem targets_of_isValid_strayDocument :
    (Value.object strayDocument).Unambiguous ∧ ∃ r, validate .standard (.object strayDocument) = .ok r ∧
      r.isValid = true ∧ ∃ fields, Value.object strayDocument = .object fields ∧
        InFull (Names fun s => s ≠ "" ∧
            (Text.isBlankText s = false → Known (Document.nodesIn (.object strayDocument)) s))
          (Value.field "connections" fields) ∧
        InFull (Names (Known (Document.nodesIn (.object strayDocument)))) (legible (Value.field "connections" fields)) ∧
        validate .standard (.object (legibleDocument fields)) = .ok r := by
  obtain ⟨r, hr, hv⟩ := exists_validate_strayDocument
  exact ⟨unambiguous_strayDocument, r, hr, hv, targets_of_isValid unambiguous_strayDocument hr hv⟩

/-- the document is reported valid although no node has the name that its second descriptor gives -/
theorem isValid_strayDocument :
    ∃ r, validate .standard (.object strayDocument) = .ok r ∧ r.isValid = true ∧
      ¬ InFull (Names (Known (Document.nodesIn (.object strayDocument)))) (Value.field "connections" strayDocument) := by
  obtain ⟨r, hr, hv⟩ := exists_validate_strayDocument
  refine ⟨r, hr, hv, ?_⟩
  rintro ⟨sources, hsources, -, hfields⟩
  cases hsources
  obtain ⟨-, -, byType, hbyType, -, htypes⟩ := hfields _ (List.mem_singleton_self _)
  cases hbyType
  obtain ⟨-, -, ports, hports, hlists⟩ := htypes _ (List.mem_singleton_self _)
  cases hports
  obtain ⟨items, hitems, hdescriptors⟩ := hlists _ (List.mem_singleton_self _)
  cases hitems
  obtain ⟨fields, s, hobject, hnode, hknown⟩ := hdescriptors (Edge.plain " " "main" 0).toValue (by simp)
  cases hobject
  cases hnode
  exact absurd hknown (by decide +kernel)

end Validation

end WorkflowGraph
